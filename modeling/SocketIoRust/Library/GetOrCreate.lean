import SocketIoRust.Library.Threads

namespace SocketIoRust.Library.GetOrCreate

open Threads

/-- Objects by their keys. An object that is created replaces the one before it, and differs
from all that there were. -/
structure Store (σ κ ν : Type) [DecidableEq κ] where
  get : σ → κ → Option ν
  create : σ → κ → σ × ν
  Made : σ → ν → Prop
  Valid : σ → Prop
  valid_create : ∀ s k, Valid s → Valid (create s k).1
  get_create : ∀ s k j, get (create s k).1 j = if j = k then some (create s k).2 else get s j
  made_create : ∀ s k v, Made s v ∨ v = (create s k).2 → Made (create s k).1 v
  new_create : ∀ s k, ¬ Made s (create s k).2
  made_get : ∀ s k v, Valid s → get s k = some v → Made s v

/-- A call that looks for an object and creates it if there is none, in two steps. -/
inductive Call (κ ν : Type) where
  | get : κ → Call κ ν
  | create : κ → Call κ ν
  | done : κ → ν → (new : Bool) → Call κ ν

def Call.createsFor {κ ν : Type} [DecidableEq κ] (k : κ) : Call κ ν → Bool
  | done j _ true => decide (j = k)
  | _ => false

def IsCall {κ ν : Type} (t : Call κ ν) : Prop := ∃ k, t = .get k

variable {σ κ ν : Type} [DecidableEq κ] (S : Store σ κ ν)

def Store.next : Program σ (Call κ ν) := fun s t ↦
  match t with
  | .get k =>
    match S.get s k with
    | some v => some (s, .done k v false)
    | none => some (s, .create k)
  | .create k => some ((S.create s k).1, .done k (S.create s k).2 true)
  | .done _ _ _ => none

variable {S} {s₀ : σ} {p : Pool σ (Call κ ν)}

/-- What a call knows: its object has been made, after the start if it is a new one. -/
def Knows (S : Store σ κ ν) (s₀ s : σ) : Call κ ν → Prop
  | .get _ => True
  | .create k => S.get s₀ k = none
  | .done k v new => S.Made s v ∧ (S.get s k).isSome = true ∧ (new = true → S.get s₀ k = none)

/-- New objects differ. -/
def Differ (t u : Call κ ν) : Prop :=
  ∀ k v j w, t = .done k v true → u = .done j w true → v ≠ w

theorem create_isSome (s : σ) (k : κ) {j : κ} (h : j = k ∨ (S.get s j).isSome = true) :
    (S.get (S.create s k).1 j).isSome = true := by
  rw [S.get_create]
  split
  · rfl
  · exact h.resolve_left ‹_›

/-- A key that has an object keeps having one. -/
def Grows (S : Store σ κ ν) (s₀ s : σ) : Prop :=
  S.Valid s ∧ ∀ k, (S.get s₀ k).isSome = true → (S.get s k).isSome = true

theorem steps_know (hvalid : S.Valid s₀) (h : Steps S.next IsCall Free ⟨s₀, []⟩ p) :
    Grows S s₀ p.shared ∧ (∀ t ∈ p.threads, Knows S s₀ p.shared t) ∧ p.threads.Pairwise Differ := by
  refine h.forall_threads (I := Grows S s₀) (T := Knows S s₀) ?_ ?_ ?_ ⟨⟨hvalid, fun _ h ↦ h⟩, rfl⟩
  · intro t u hd k v j w hu ht he
    exact hd j w k v ht hu he.symm
  · rintro s t - ⟨k, rfl⟩
    exact ⟨trivial, fun u k v j w ht ↦ nomatch ht⟩
  · intro s t s' t' hgrows hknows _ hn
    cases t with
    | get k =>
      rw [Store.next] at hn
      cases hget : S.get s k with
      | some v =>
        rw [hget] at hn
        cases hn
        refine ⟨hgrows, ⟨S.made_get s k v hgrows.1 hget, by rw [hget]; rfl, nofun⟩, ?_⟩
        exact fun u hu _ ↦ ⟨hu, fun k v j w ht ↦ nomatch ht⟩
      | none =>
        rw [hget] at hn
        cases hn
        have hnone : S.get s₀ k = none := by
          by_contra hne
          have hsome := hgrows.2 k (Option.isSome_iff_ne_none.mpr hne)
          rw [hget] at hsome
          cases hsome
        exact ⟨hgrows, hnone, fun u hu _ ↦ ⟨hu, fun k v j w ht ↦ nomatch ht⟩⟩
    | create k =>
      cases hn
      refine ⟨⟨S.valid_create s k hgrows.1, fun j hj ↦ create_isSome s k (.inr (hgrows.2 j hj))⟩,
        ⟨S.made_create s k _ (.inr rfl), create_isSome s k (.inl rfl), fun _ ↦ hknows⟩, ?_⟩
      intro u hu _
      refine ⟨?_, ?_⟩
      · cases u with
        | get j => trivial
        | create j => exact hu
        | done j v new =>
          exact ⟨S.made_create s k v (.inl hu.1), create_isSome s k (.inr hu.2.1), hu.2.2⟩
      · intro k' v j w ht hw he
        cases ht
        subst hw
        exact S.new_create s k (he ▸ hu.1)
    | done k v new => cases hn

/-- Every object that is registered or returned was there at the start, or some call has
created it. -/
def Accounted (S : Store σ κ ν) (s₀ : σ) (p : Pool σ (Call κ ν)) : Prop :=
  ∀ k v, S.get p.shared k = some v ∨ (∃ new, .done k v new ∈ p.threads) →
    S.get s₀ k = some v ∨ .done k v true ∈ p.threads

theorem steps_accounted (h : Steps S.next IsCall Free ⟨s₀, []⟩ p) : Accounted S s₀ p := by
  refine h.invariant (I := Accounted S s₀) ?_ ?_
  swap
  · rintro k v (hget | ⟨new, hmem⟩)
    · exact .inl hget
    · cases hmem
  intro p q hI hs
  cases hs with
  | @start s ts t ht =>
    obtain ⟨j, rfl⟩ := ht
    intro k v hkv
    have hold : S.get s k = some v ∨ ∃ new, .done k v new ∈ ts := by
      simpa using hkv
    exact (hI k v hold).imp_right (List.mem_append_left _)
  | @run s s' before after t t' _ hn =>
    cases t with
    | get j =>
      have hkeep : ∀ k v, .done k v true ∈ before ++ .get j :: after →
          .done k v true ∈ before ++ t' :: after := by
        intro k v hmem
        simp only [List.mem_append, List.mem_cons, reduceCtorEq, false_or] at hmem ⊢
        exact hmem.imp_right .inr
      rw [Store.next] at hn
      cases hget : S.get s j with
      | none =>
        rw [hget] at hn
        cases hn
        intro k v hkv
        have hold : S.get s k = some v ∨ ∃ new, .done k v new ∈ before ++ .get j :: after := by
          simpa using hkv
        exact (hI k v hold).imp_right (hkeep k v)
      | some w =>
        rw [hget] at hn
        cases hn
        intro k v hkv
        have hold : S.get s k = some v ∨ ∃ new, .done k v new ∈ before ++ .get j :: after := by
          rcases hkv with hkv | ⟨new, hmem⟩
          · exact .inl hkv
          · simp only [List.mem_append, List.mem_cons, reduceCtorEq, false_or] at hmem ⊢
            rcases hmem with hmem | heq | hmem
            · exact .inr ⟨new, .inl hmem⟩
            · cases heq
              exact .inl hget
            · exact .inr ⟨new, .inr hmem⟩
        exact (hI k v hold).imp_right (hkeep k v)
    | create j =>
      cases hn
      intro k v hkv
      have hnew : v = (S.create s j).2 ∧ k = j ∨
          (S.get s k = some v ∨ ∃ new, .done k v new ∈ before ++ .create j :: after) := by
        rcases hkv with hkv | ⟨new, hmem⟩
        · rw [S.get_create] at hkv
          split at hkv
          · exact .inl ⟨(Option.some.inj hkv).symm, ‹_›⟩
          · exact .inr (.inl hkv)
        · simp only [List.mem_append, List.mem_cons, reduceCtorEq, false_or] at hmem ⊢
          rcases hmem with hmem | heq | hmem
          · exact .inr (.inr ⟨new, .inl hmem⟩)
          · cases heq
            exact .inl ⟨rfl, rfl⟩
          · exact .inr (.inr ⟨new, .inr hmem⟩)
      rcases hnew with ⟨rfl, rfl⟩ | hold
      · exact .inr (by simp)
      · refine (hI k v hold).imp_right ?_
        intro hmem
        simp only [List.mem_append, List.mem_cons, reduceCtorEq, false_or] at hmem ⊢
        exact hmem.imp_right .inr
    | done j w new => cases hn

theorem createsFor_iff {k : κ} {t : Call κ ν} :
    t.createsFor k = true ↔ ∃ v, t = .done k v true := by
  cases t with
  | get j => simp [Call.createsFor]
  | create j => simp [Call.createsFor]
  | done j v new => cases new <;> simp [Call.createsFor, eq_comm]

theorem eq_of_countP_le_one {α : Type} {P : α → Bool} {l : List α} (h : l.countP P ≤ 1) {a b : α}
    (ha : a ∈ l) (hb : b ∈ l) (hPa : P a = true) (hPb : P b = true) : a = b := by
  rw [List.countP_eq_length_filter] at h
  have hma := List.mem_filter.mpr ⟨ha, hPa⟩
  have hmb := List.mem_filter.mpr ⟨hb, hPb⟩
  match hf : l.filter P with
  | [] =>
    rw [hf] at hma
    cases hma
  | [c] =>
    rw [hf, List.mem_singleton] at hma hmb
    rw [hma, hmb]
  | c :: d :: rest =>
    rw [hf] at h
    simp at h

/-- In every interleaving, all calls for a key return the object that is registered for it if
and only if no two of them have created one. -/
theorem registered_iff (hvalid : S.Valid s₀) (h : Steps S.next IsCall Free ⟨s₀, []⟩ p) (k : κ) :
    (∀ v new, .done k v new ∈ p.threads → S.get p.shared k = some v) ↔
      p.threads.countP (Call.createsFor k) ≤ 1 := by
  obtain ⟨hgrows, hknow, hdiffer⟩ := steps_know hvalid h
  have haccount := steps_accounted h
  constructor
  · intro hall
    by_contra hmany
    rw [List.countP_eq_length_filter] at hmany
    have hpair := hdiffer.sublist (List.filter_sublist (p := Call.createsFor k))
    match hf : p.threads.filter (Call.createsFor k) with
    | [] => simp [hf] at hmany
    | [c] => simp [hf] at hmany
    | c :: d :: rest =>
      rw [hf] at hpair
      have hmem (t : Call κ ν) (ht : t ∈ c :: d :: rest) :
          ∃ v, t = .done k v true ∧ S.get p.shared k = some v := by
        rw [← hf, List.mem_filter] at ht
        obtain ⟨v, rfl⟩ := createsFor_iff.mp ht.2
        exact ⟨v, rfl, hall v true ht.1⟩
      obtain ⟨v, rfl, hv⟩ := hmem c (by simp)
      obtain ⟨w, rfl, hw⟩ := hmem d (by simp)
      rw [hv] at hw
      exact (List.pairwise_cons.mp hpair).1 _ (List.mem_cons_self ..) k v k w rfl rfl
        (Option.some.inj hw)
  · intro hone v new hmem
    obtain ⟨-, hsome, -⟩ := hknow _ hmem
    obtain ⟨w, hw⟩ := Option.isSome_iff_exists.mp hsome
    rw [hw]
    have hstart (u : ν) (hu : .done k u true ∈ p.threads) : S.get s₀ k = none := by
      obtain ⟨-, -, hnone⟩ := hknow _ hu
      exact hnone rfl
    rcases haccount k v (.inr ⟨new, hmem⟩) with hv | hv
    · rcases haccount k w (.inl hw) with hw' | hw'
      · rw [← hw', hv]
      · rw [hstart w hw'] at hv
        cases hv
    · rcases haccount k w (.inl hw) with hw' | hw'
      · rw [hstart v hv] at hw'
        cases hw'
      · have he := eq_of_countP_le_one hone hv hw' (createsFor_iff.mpr ⟨v, rfl⟩)
          (createsFor_iff.mpr ⟨w, rfl⟩)
        cases he
        rfl

end SocketIoRust.Library.GetOrCreate
