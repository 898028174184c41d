import SocketIoRust.SocketIoParser.Reconstruction

namespace SocketIoRust.SocketIoParser

open Library PacketDataValue DefaultEncoder DefaultDecoder

theorem FilledElements.length {values : List JsonValue}
    (h : ∀ j ∈ values, ∀ ws v, Filled j ws v → ws.length = (placeholders j).length)
    {ws vs : List PacketDataValue} (hvs : FilledElements values ws vs) :
    ws.length = (placeholdersOfElements values).length := by
  induction values generalizing ws vs with
  | nil =>
    cases hvs
    rfl
  | cons value values ih =>
    rw [List.forall_mem_cons] at h
    cases hvs with
    | cons hfirst hlater =>
    rw [List.length_append, placeholdersOfElements, List.length_append, h.1 _ _ hfirst,
      ih h.2 hlater]

theorem placeholdersOfEntries_eq (entries : List (Str × JsonValue)) :
    placeholdersOfEntries entries = placeholdersOfElements (entries.map Prod.snd) := by
  induction entries with
  | nil => rfl
  | cons e entries ih => rw [placeholdersOfEntries, ih, List.map_cons, placeholdersOfElements]

/-- There is one value for each placeholder. -/
theorem Filled.length {j : JsonValue} {ws : List PacketDataValue} {v : PacketDataValue}
    (h : Filled j ws v) : ws.length = (placeholders j).length := by
  induction j using Json.Value.induct generalizing ws v with
  | null =>
    cases h
    rfl
  | bool b =>
    cases h
    rfl
  | number n =>
    cases h
    rfl
  | string s =>
    cases h
    rfl
  | array values ih =>
    cases h with
    | array hvs => exact hvs.length (fun j hj _ _ ↦ ih j hj)
  | object entries ih =>
    cases h with
    | placeholder _ hindex => rw [placeholders, hindex, List.length_singleton, List.length_singleton]
    | object hindex hes =>
    rw [placeholders, hindex]
    dsimp only
    rw [placeholdersOfEntries_eq]
    exact hes.elements.length (List.forall_mem_map.mpr (fun e he _ _ ↦ ih e he))

theorem FilledElements.unique {values : List JsonValue}
    (h : ∀ j ∈ values, ∀ ws v v', Filled j ws v → Filled j ws v' → v = v')
    {ws vs vs' : List PacketDataValue} (hvs : FilledElements values ws vs)
    (hvs' : FilledElements values ws vs') : vs = vs' := by
  induction values generalizing ws vs vs' with
  | nil =>
    cases hvs
    cases hvs'
    rfl
  | cons value values ih =>
    rw [List.forall_mem_cons] at h
    generalize hw : ws = ws' at hvs'
    cases hvs with
    | @cons _ _ ws₁ ws₂ vs v hfirst hlater =>
    cases hvs' with
    | @cons _ _ ws₁' ws₂' vs' v' hfirst' hlater' =>
    -- each value takes as much of the list as it has placeholders
    obtain ⟨rfl, rfl⟩ := List.append_inj hw (hfirst.length.trans hfirst'.length.symm)
    rw [h.1 _ _ _ hfirst hfirst', ih h.2 hlater hlater']

/-- The JSON and the values for its placeholders determine the data. -/
theorem Filled.unique {j : JsonValue} {ws : List PacketDataValue} {v v' : PacketDataValue}
    (h : Filled j ws v) (h' : Filled j ws v') : v = v' := by
  induction j using Json.Value.induct generalizing ws v v' with
  | null =>
    cases h
    cases h'
    rfl
  | bool b =>
    cases h
    cases h'
    rfl
  | number n =>
    cases h
    cases h'
    rfl
  | string s =>
    cases h
    cases h'
    rfl
  | array values ih =>
    cases h with
    | array hvs =>
    cases h' with
    | array hvs' => rw [hvs.unique (fun j hj _ _ _ ↦ ih j hj) hvs']
  | object entries ih =>
    cases h with
    | placeholder _ hindex =>
      cases h' with
      | placeholder _ _ => rfl
      | object hnone _ =>
        rw [hindex] at hnone
        cases hnone
    | object hindex hes =>
      cases h' with
      | placeholder _ hsome =>
        rw [hindex] at hsome
        cases hsome
      | object _ hes' =>
        have hvalues := hes.elements.unique
          (List.forall_mem_map.mpr (fun e he _ _ _ ↦ ih e he)) hes'.elements
        have hkeys := hes.keys.trans hes'.keys.symm
        rw [List.zip_of_prod hkeys hvalues, ← List.zip_of_prod rfl rfl]

theorem filled_deconstructElements {values : List PacketDataValue}
    (h : ∀ v ∈ values, ∀ a, Filled (deconstructPacketData v a).1
      ((binaryLeaves v).map PacketDataValue.binary) v) (a : List Bytes) :
    FilledElements (deconstructElements values a).1
      ((leavesOfElements values).map PacketDataValue.binary) values := by
  induction values generalizing a with
  | nil => exact .nil
  | cons value values ih =>
    rw [List.forall_mem_cons] at h
    simp only [deconstructElements, leavesOfElements, List.map_append]
    exact .cons (h.1 a) (ih h.2 _)

/-- Data without objects are their JSON, with their binary leaves filled in. -/
theorem filled_deconstruct {v : PacketDataValue} (ho : ObjectFree v) (a : List Bytes) :
    Filled (deconstructPacketData v a).1 ((binaryLeaves v).map PacketDataValue.binary) v := by
  induction v using PacketDataValue.induct generalizing a with
  | null => exact .null
  | bool b => exact .bool b
  | number n => exact .number n
  | string s => exact .string s
  | binary data => exact .placeholder (.binary data) rfl
  | object entries => cases ho
  | array values ih =>
    cases ho with
    | array ho => exact .array (filled_deconstructElements (fun v hv a ↦ ih v hv (ho v hv) a) a)

/-- Its placeholders are the only objects of the JSON. -/
def Objectless (j : JsonValue) : Prop :=
  ∀ ws w, Filled j ws w → (∀ w ∈ ws, IsAttachment w) → ObjectFree w

theorem objectless_array {values : List JsonValue} (h : ∀ j ∈ values, Objectless j) :
    Objectless (.array values) := by
  intro ws w hw hws
  cases hw with
  | array hvs =>
  refine .array fun v hv ↦ ?_
  obtain ⟨j, hj, ws', hfilled, hmem⟩ := hvs.exists_of_mem hv
  exact h j hj ws' v hfilled (fun w hw ↦ hws w (hmem w hw))

theorem objectless_makePlaceholder (index : ℕ) : Objectless (makePlaceholder index) := by
  intro ws w hw hws
  cases hw with
  | placeholder _ _ =>
    obtain ⟨data, rfl⟩ := hws w (List.mem_singleton.mpr rfl)
    cases data with
    | some data => exact .binary data
    | none => exact .null
  | object hnone _ => cases hnone

/-- The encoder turns objects into arrays. -/
theorem objectless_deconstruct (v : PacketDataValue) (a : List Bytes) :
    Objectless (deconstructPacketData v a).1 := by
  induction v using PacketDataValue.induct generalizing a with
  | null =>
    intro ws w hw hws
    cases hw
    exact .null
  | bool b =>
    intro ws w hw hws
    cases hw
    exact .bool b
  | number n =>
    intro ws w hw hws
    cases hw
    exact .number n
  | string s =>
    intro ws w hw hws
    cases hw
    exact .string s
  | binary data => exact objectless_makePlaceholder a.length
  | array values ih => exact objectless_array (forall_deconstructElements ih a)
  | object entries ih =>
    rw [deconstruct_object]
    exact objectless_array (forall_deconstructElements (List.forall_mem_map.mpr ih) a)

theorem replacements_range (buffers : List Bytes) :
    replacements buffers (List.range' 0 buffers.length) = buffers.map PacketDataValue.binary := by
  apply List.ext_getElem?
  intro i
  rw [replacements, List.getElem?_mapIdx, List.getElem?_map, ← List.range_eq_range']
  by_cases hi : i < buffers.length
  · have hnot : i ∉ (List.range buffers.length).take i := by
      rw [List.take_range, List.mem_range]
      omega
    rw [List.getElem?_range hi, Option.map_some, if_neg hnot, List.getElem?_eq_getElem hi]
    rfl
  · have hle : buffers.length ≤ i := Nat.not_lt.mp hi
    rw [List.getElem?_eq_none (by simpa using hle), List.getElem?_eq_none hle]
    rfl

/-- The data that the decoder makes of what the encoder sends. -/
def roundTrip (v : PacketDataValue) : PacketDataValue :=
  let encoded := deconstructPacketData v []
  (reconstructPacketData encoded.1 (attachmentMap encoded.2)).1

theorem roundTrip_of_objectFree {v : PacketDataValue} (ho : ObjectFree v)
    (h : (binaryLeaves v).length ≤ usizeSize) : roundTrip v = v := by
  obtain ⟨hattachments, hplaceholders⟩ := deconstructPacketData_numbers v [] h
  obtain ⟨hfilled, -⟩ := reconstructPacketData_fills (deconstructPacketData v []).1
    (deconstruct_wellFormed v []) (deconstructPacketData v []).2
  rw [List.nil_append] at hattachments
  rw [hplaceholders, List.length_nil, hattachments, replacements_range, ← hattachments] at hfilled
  refine hfilled.unique ?_
  rw [hattachments]
  exact filled_deconstruct ho []

theorem roundTrip_objectFree (v : PacketDataValue) : ObjectFree (roundTrip v) := by
  obtain ⟨hfilled, -⟩ := reconstructPacketData_fills (deconstructPacketData v []).1
    (deconstruct_wellFormed v []) (deconstructPacketData v []).2
  exact objectless_deconstruct v [] _ _ hfilled (fun _ ↦ isAttachment_of_mem_replacements)

/-- The data come back as they are exactly if they hold no object: the encoder sends the
values of an object as an array. -/
theorem roundTrip_eq_iff (v : PacketDataValue) (h : (binaryLeaves v).length ≤ usizeSize) :
    roundTrip v = v ↔ ObjectFree v := by
  constructor
  · intro hv
    rw [← hv]
    exact roundTrip_objectFree v
  · intro ho
    exact roundTrip_of_objectFree ho h

theorem roundTrip_eq_iff_nested : roundTrip nested = nested ↔ ObjectFree nested :=
  roundTrip_eq_iff nested (by decide)

theorem roundTrip_object :
    ¬ ∀ v, PlaceholderFree v → (binaryLeaves v).length ≤ usizeSize → roundTrip v = v := by
  intro h
  have hfree : PlaceholderFree (.object [(['k'], .null)]) := by
    refine .object rfl ?_
    rw [List.forall_mem_singleton]
    exact .null
  have hv := h _ hfree (by decide)
  cases hv

end SocketIoRust.SocketIoParser
