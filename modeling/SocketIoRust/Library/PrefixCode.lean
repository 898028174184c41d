import Mathlib.Data.List.Basic

namespace SocketIoRust.Library.PrefixCode

variable {α τ : Type}

/-- No encoding of an item is empty, and none begins the encoding of another item,
whatever follows the two. -/
structure IsPrefixCode (P : α → Prop) (encode : α → List τ) : Prop where
  ne_nil : ∀ a, P a → encode a ≠ []
  eq_of_append : ∀ a b, P a → P b → ∀ r s, encode a ++ r = encode b ++ s → a = b

variable {P : α → Prop} {encode : α → List τ}

theorem IsPrefixCode.prefix_of_flatMap (h : IsPrefixCode P encode) {as bs : List α}
    (has : ∀ a ∈ as, P a) (hbs : ∀ b ∈ bs, P b) (hp : as.flatMap encode <+: bs.flatMap encode) :
    as <+: bs := by
  induction as generalizing bs with
  | nil => exact List.nil_prefix
  | cons a as ih =>
    have ha := has a (by simp)
    obtain ⟨r, hr⟩ := hp
    rw [List.flatMap_cons, List.append_assoc] at hr
    cases bs with
    | nil =>
      rw [List.flatMap_nil, List.append_eq_nil_iff] at hr
      exact absurd hr.1 (h.ne_nil a ha)
    | cons b bs =>
      rw [List.flatMap_cons] at hr
      obtain rfl := h.eq_of_append a b ha (hbs b (by simp)) _ _ hr
      rw [List.prefix_cons_inj]
      exact ih (fun c hc ↦ has c (by simp [hc])) (fun c hc ↦ hbs c (by simp [hc]))
        ⟨r, List.append_cancel_left hr⟩

theorem IsPrefixCode.eq_of_flatMap (h : IsPrefixCode P encode) {as bs : List α}
    (has : ∀ a ∈ as, P a) (hbs : ∀ b ∈ bs, P b) (he : as.flatMap encode = bs.flatMap encode) :
    as = bs := by
  have hab := h.prefix_of_flatMap has hbs (he ▸ List.prefix_rfl)
  have hba := h.prefix_of_flatMap hbs has (he ▸ List.prefix_rfl)
  exact hab.eq_of_length_le hba.length_le

end SocketIoRust.Library.PrefixCode
