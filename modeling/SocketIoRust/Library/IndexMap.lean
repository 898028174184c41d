import Mathlib.Data.List.Nodup

namespace SocketIoRust.Library.IndexMap

variable {κ ν : Type} [DecidableEq κ]

/-- A map with insertion order, as its entries: a known key keeps its place. -/
def insert (k : κ) (v : ν) : List (κ × ν) → List (κ × ν)
  | [] => [(k, v)]
  | e :: es => if e.1 = k then (e.1, v) :: es else e :: insert k v es

def get (k : κ) : List (κ × ν) → Option ν
  | [] => none
  | e :: es => if e.1 = k then some e.2 else get k es

/-- The map that results from inserting the entries one after another. -/
def collect (es : List (κ × ν)) : List (κ × ν) := es.foldl (fun map e ↦ insert e.1 e.2 map) []

def erase (k : κ) (es : List (κ × ν)) : List (κ × ν) := es.filter (fun e ↦ e.1 ≠ k)

def keys (es : List (κ × ν)) : List κ := es.map Prod.fst

theorem get_insert (k j : κ) (v : ν) (es : List (κ × ν)) :
    get j (insert k v es) = if j = k then some v else get j es := by
  induction es with
  | nil =>
    rw [insert, get]
    exact if_congr eq_comm rfl rfl
  | cons e es ih =>
    rw [insert]
    by_cases he : e.1 = k
    · rw [if_pos he, get, get, he]
      by_cases hj : j = k
      · rw [if_pos hj.symm, if_pos hj]
      · rw [if_neg (Ne.symm hj), if_neg hj, if_neg (Ne.symm hj)]
    · rw [if_neg he, get, get, ih]
      by_cases hj : e.1 = j
      · rw [if_pos hj, if_pos hj, if_neg (fun h ↦ he (hj.trans h))]
      · rw [if_neg hj, if_neg hj]

/-- Inserting what is there changes nothing. -/
theorem insert_of_get {k : κ} {v : ν} {es : List (κ × ν)} (h : get k es = some v) :
    insert k v es = es := by
  induction es with
  | nil => cases h
  | cons e es ih =>
    rw [get] at h
    rw [insert]
    by_cases he : e.1 = k
    · rw [if_pos he] at h ⊢
      cases h
      rfl
    · rw [if_neg he] at h ⊢
      rw [ih h]

theorem get_erase (k j : κ) (es : List (κ × ν)) :
    get j (erase k es) = if j = k then none else get j es := by
  induction es with
  | nil => simp [erase, get]
  | cons e es ih =>
    rw [erase] at ih
    rw [erase]
    by_cases he : e.1 = k
    · rw [List.filter_cons_of_neg (by simp [he]), ih, get, he]
      by_cases hj : j = k
      · rw [if_pos hj, if_pos hj]
      · rw [if_neg hj, if_neg hj, if_neg (Ne.symm hj)]
    · rw [List.filter_cons_of_pos (by simp [he]), get, get, ih]
      by_cases hj : e.1 = j
      · rw [if_pos hj, if_pos hj, if_neg (fun h ↦ he (hj.trans h))]
      · rw [if_neg hj, if_neg hj]

theorem get_foldl_erase (j : κ) (ks : List κ) (es : List (κ × ν)) :
    get j (ks.foldl (fun es k ↦ erase k es) es) = if j ∈ ks then none else get j es := by
  induction ks generalizing es with
  | nil => simp
  | cons k ks ih =>
    rw [List.foldl_cons, ih, get_erase]
    by_cases hj : j = k
    · simp [hj]
    · simp [hj]

theorem get_eq_none {k : κ} {es : List (κ × ν)} : get k es = none ↔ k ∉ keys es := by
  induction es with
  | nil => simp [get, keys]
  | cons e es ih =>
    rw [keys] at ih
    rw [keys, get, List.map_cons, List.mem_cons, not_or, ← ih]
    by_cases he : e.1 = k
    · simp [he]
    · simp [he, Ne.symm he]

theorem mem_keys {k : κ} {es : List (κ × ν)} : k ∈ keys es ↔ ∃ v, get k es = some v := by
  rw [← Option.ne_none_iff_exists', Ne, get_eq_none, not_not]

theorem mem_keys_insert {k j : κ} {v : ν} {es : List (κ × ν)} :
    j ∈ keys (insert k v es) ↔ j = k ∨ j ∈ keys es := by
  rw [mem_keys, mem_keys, get_insert]
  by_cases hj : j = k
  · simp [hj]
  · simp [hj]

theorem nodup_keys_insert {k : κ} {v : ν} {es : List (κ × ν)} (h : (keys es).Nodup) :
    (keys (insert k v es)).Nodup := by
  induction es with
  | nil => exact List.nodup_singleton k
  | cons e es ih =>
    rw [keys, List.map_cons, List.nodup_cons] at h
    rw [insert]
    split
    · exact List.nodup_cons.mpr h
    · rename_i he
      refine List.nodup_cons.mpr ⟨?_, ih h.2⟩
      intro hmem
      rcases mem_keys_insert.mp hmem with hk | hmem
      · exact he hk
      · exact h.1 hmem

theorem get_eq_some_iff {k : κ} {v : ν} {es : List (κ × ν)} (h : (keys es).Nodup) :
    get k es = some v ↔ (k, v) ∈ es := by
  induction es with
  | nil => simp [get]
  | cons e es ih =>
    obtain ⟨j, w⟩ := e
    rw [keys, List.map_cons, List.nodup_cons] at h
    rw [get, List.mem_cons, Prod.mk.injEq]
    by_cases hj : j = k
    · subst hj
      rw [if_pos rfl, Option.some.injEq, eq_comm]
      have hnot : (j, v) ∉ es := fun hmem ↦ h.1 (List.mem_map.mpr ⟨(j, v), hmem, rfl⟩)
      simp [hnot]
    · rw [if_neg hj, ih h.2]
      simp [Ne.symm hj]

theorem insert_of_notMem {k : κ} {v : ν} {es : List (κ × ν)} (h : k ∉ es.map Prod.fst) :
    insert k v es = es ++ [(k, v)] := by
  induction es with
  | nil => rfl
  | cons e es ih =>
    rw [List.map_cons, List.mem_cons, not_or] at h
    rw [insert, if_neg (Ne.symm h.1), ih h.2, List.cons_append]

theorem foldl_insert {es map : List (κ × ν)} (h : ((map ++ es).map Prod.fst).Nodup) :
    es.foldl (fun map e ↦ insert e.1 e.2 map) map = map ++ es := by
  induction es generalizing map with
  | nil => simp
  | cons e es ih =>
    have hnot : e.1 ∉ map.map Prod.fst := by
      rw [List.map_append, List.nodup_append] at h
      exact fun hmem ↦ h.2.2 _ hmem _ (by simp) rfl
    rw [List.foldl_cons, insert_of_notMem hnot, ih (by simpa using h)]
    simp

theorem collect_of_nodup {es : List (κ × ν)} (h : (es.map Prod.fst).Nodup) : collect es = es :=
  foldl_insert (by simpa using h)

end SocketIoRust.Library.IndexMap
