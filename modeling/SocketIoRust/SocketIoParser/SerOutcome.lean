import SocketIoRust.SocketIoParser.Ser

namespace SocketIoRust.SocketIoParser

open Library Library.Serde
open Library.Outcome (ok err)

/-- The keys of all objects in a value are different. -/
inductive PacketDataValue.DistinctKeys : PacketDataValue → Prop
  | null : DistinctKeys .null
  | bool (b : Bool) : DistinctKeys (.bool b)
  | number (n : Json.Number) : DistinctKeys (.number n)
  | string (s : Str) : DistinctKeys (.string s)
  | array {values : List PacketDataValue} : (∀ v ∈ values, DistinctKeys v) →
      DistinctKeys (.array values)
  | object {entries : List (Str × PacketDataValue)} : (IndexMap.keys entries).Nodup →
      (∀ e ∈ entries, DistinctKeys e.2) → DistinctKeys (.object entries)
  | binary (data : Bytes) : DistinctKeys (.binary data)

namespace Ser

/-- In every map that is serialized the calls come in pairs. -/
inductive Paired : Data → Prop
  | intro {d : Data} : d.Alternates → (∀ c ∈ d.parts, Paired c) → Paired d

/-- What can be the key of a map: texts, integers and what is wrapped around one of them. -/
def IsKey : Data → Bool
  | .i8 _ | .i16 _ | .i32 _ | .i64 _ | .u8 _ | .u16 _ | .u32 _ | .u64 _ | .char _ | .str _
  | .collectStr _ | .unitVariant .. => true
  | .newtypeStruct _ value => IsKey value
  | _ => false

/-- An integer of 128 bits. -/
def IsWide : Data → Bool
  | .i128 _ | .u128 _ => true
  | _ => false

/-- The data have no integer of 128 bits, and the keys of their maps can be keys. -/
inductive Supported : Data → Prop
  | intro {d : Data} : IsWide d = false → (∀ key ∈ d.keys, IsKey key = true) →
      (∀ c ∈ d.parts, Supported c) → Supported d

theorem supported_iff {d : Data} : Supported d ↔
    IsWide d = false ∧ (∀ key ∈ d.keys, IsKey key = true) ∧ ∀ c ∈ d.parts, Supported c := by
  constructor
  · intro h
    cases h with
    | intro hwide hkeys hparts => exact ⟨hwide, hkeys, hparts⟩
  · exact fun h ↦ .intro h.1 h.2.1 h.2.2

theorem Supported.leaf {d : Data} (hwide : IsWide d = false) (hkeys : d.keys = [])
    (hparts : d.parts = []) : Supported d := by
  refine .intro hwide ?_ ?_
  · rw [hkeys]
    exact List.forall_mem_nil _
  · rw [hparts]
    exact List.forall_mem_nil _

/-- The call ends well exactly if `C` holds, with a value that satisfies `P`, and else with
the error of the serializer: it never panics. -/
def Settles {α : Type} (C : Prop) (x : Outcome Error α) (P : α → Prop) : Prop :=
  (C ∧ ∃ a, x = ok a ∧ P a) ∨ (¬ C ∧ x = err ⟨⟩)

variable {α β : Type} {C C' : Prop} {x : Outcome Error α} {P : α → Prop} {Q : β → Prop}

theorem Settles.ok {a : α} (hC : C) (h : P a) : Settles C (ok a) P := .inl ⟨hC, a, rfl, h⟩

theorem Settles.congr (h : Settles C x P) (hC : C ↔ C') : Settles C' x P := by
  rwa [Settles, ← hC]

theorem Settles.bind {f : α → Outcome Error β} (h : Settles C x P)
    (hf : ∀ a, P a → Settles C' (f a) Q) : Settles (C ∧ C') (x >>= f) Q := by
  rcases h with ⟨hC, a, rfl, ha⟩ | ⟨hC, rfl⟩
  · exact (hf a ha).congr (by simp [hC])
  · exact .inr ⟨fun hand ↦ hC hand.1, rfl⟩

theorem Settles.map {f : α → β} (h : Settles C x P) (hf : ∀ a, P a → Q (f a)) :
    Settles C (x.map f) Q := by
  rcases h with ⟨hC, a, rfl, ha⟩ | ⟨hC, rfl⟩
  · exact .inl ⟨hC, f a, rfl, hf a ha⟩
  · exact .inr ⟨hC, rfl⟩

theorem Settles.bind_ok {f : α → β} (h : Settles C x P) (hf : ∀ a, P a → Q (f a)) :
    Settles C (x >>= fun a ↦ Outcome.ok (f a)) Q := by
  rcases h with ⟨hC, a, rfl, ha⟩ | ⟨hC, rfl⟩
  · exact .inl ⟨hC, f a, rfl, hf a ha⟩
  · exact .inr ⟨hC, rfl⟩

theorem toKey_settles (d : Data) : Settles (IsKey d = true) (toKey d) (fun _ ↦ True) := by
  induction d using Data.induct with
  | step d ih =>
    cases d with
    | newtypeStruct name value =>
      rw [IsKey, toKey]
      exact ih value (List.mem_singleton_self value)
    | i8 | i16 | i32 | i64 | u8 | u16 | u32 | u64 | char | str | collectStr | unitVariant =>
      exact .inl ⟨rfl, _, rfl, trivial⟩
    | _ => exact .inr ⟨by simp [IsKey], rfl⟩

abbrev Clean := PacketDataValue.DistinctKeys

structure CleanMap (map : List (Str × Value)) : Prop where
  keys : (IndexMap.keys map).Nodup
  values : ∀ e ∈ map, Clean e.2

theorem CleanMap.nil : CleanMap [] := ⟨List.nodup_nil, by simp⟩

theorem CleanMap.insert {map : List (Str × Value)} (h : CleanMap map) (key : Str) {v : Value}
    (hv : Clean v) : CleanMap (IndexMap.insert key v map) := by
  refine ⟨IndexMap.nodup_keys_insert h.keys, ?_⟩
  rintro ⟨key', w⟩ hmem
  have hget := (IndexMap.get_eq_some_iff (IndexMap.nodup_keys_insert h.keys)).mpr hmem
  rw [IndexMap.get_insert] at hget
  split at hget
  · cases hget
    exact hv
  · exact h.values (key', w) ((IndexMap.get_eq_some_iff h.keys).mp hget)

theorem CleanMap.object {map : List (Str × Value)} (h : CleanMap map) : Clean (.object map) :=
  .object h.keys h.values

theorem forall_mem_push {vec : List Value} {v : Value} (h : ∀ w ∈ vec, Clean w) (hv : Clean v) :
    ∀ w ∈ vec ++ [v], Clean w :=
  List.forall_mem_append.mpr ⟨h, List.forall_mem_singleton.mpr hv⟩

/-- What `to_value` makes of a part of the data. -/
def PartSettles (c : Data) : Prop := Settles (Supported c) (toValue c) Clean

theorem serializeElements_settles {values : List Data} (h : ∀ c ∈ values, PartSettles c)
    (self : SerializeVec) (hself : ∀ w ∈ self.vec, Clean w) :
    Settles (∀ c ∈ values, Supported c) (serializeElements values self)
      (fun self ↦ ∀ w ∈ self.vec, Clean w) := by
  induction values generalizing self with
  | nil => exact .ok (by simp) hself
  | cons value values ih =>
    obtain ⟨hvalue, hvalues⟩ := List.forall_mem_cons.mp h
    rw [serializeElements, SerializeVec.serializeElement, List.forall_mem_cons]
    refine Settles.bind (hvalue.bind_ok ?_) fun self hself ↦ ih hvalues self hself
    exact fun v hv ↦ forall_mem_push hself hv

theorem serializeVariantFields_settles {values : List Data} (h : ∀ c ∈ values, PartSettles c)
    (self : SerializeTupleVariant) (hself : ∀ w ∈ self.vec, Clean w) :
    Settles (∀ c ∈ values, Supported c) (serializeVariantFields values self)
      (fun self ↦ ∀ w ∈ self.vec, Clean w) := by
  induction values generalizing self with
  | nil => exact .ok (by simp) hself
  | cons value values ih =>
    obtain ⟨hvalue, hvalues⟩ := List.forall_mem_cons.mp h
    rw [serializeVariantFields, SerializeTupleVariant.serializeField, List.forall_mem_cons]
    refine Settles.bind (hvalue.bind_ok ?_) fun self hself ↦ ih hvalues self hself
    exact fun v hv ↦ forall_mem_push hself hv

/-- A pending key is used up by the value that follows it. -/
theorem serializeValue_settles {value : Data} (h : PartSettles value) (self : SerializeMap)
    (hself : CleanMap self.map) (key : Str) :
    Settles (Supported value)
      (SerializeMap.serializeValue { self with nextKey := some key } (toValue value))
      (fun self ↦ CleanMap self.map) :=
  h.bind_ok fun _ hv ↦ hself.insert key hv

theorem serializeFields_settles {fields : List (Str × Data)}
    (h : ∀ c ∈ fields.map Prod.snd, PartSettles c) (self : SerializeMap)
    (hself : CleanMap self.map) :
    Settles (∀ c ∈ fields.map Prod.snd, Supported c) (serializeFields fields self)
      (fun self ↦ CleanMap self.map) := by
  induction fields generalizing self with
  | nil => exact .ok (by simp) hself
  | cons field fields ih =>
    obtain ⟨key, value⟩ := field
    rw [List.map_cons] at h ⊢
    obtain ⟨hvalue, hvalues⟩ := List.forall_mem_cons.mp h
    rw [serializeFields, MapKeySerializer.serializeStr, SerializeMap.serializeKey, Outcome.ok_bind,
      Outcome.ok_bind, List.forall_mem_cons]
    exact (serializeValue_settles hvalue self hself key).bind fun self hself ↦ ih hvalues self hself

theorem serializeStructVariantFields_settles {fields : List (Str × Data)}
    (h : ∀ c ∈ fields.map Prod.snd, PartSettles c) (self : SerializeStructVariant)
    (hself : CleanMap self.map) :
    Settles (∀ c ∈ fields.map Prod.snd, Supported c) (serializeStructVariantFields fields self)
      (fun self ↦ CleanMap self.map) := by
  induction fields generalizing self with
  | nil => exact .ok (by simp) hself
  | cons field fields ih =>
    obtain ⟨key, value⟩ := field
    rw [List.map_cons] at h ⊢
    obtain ⟨hvalue, hvalues⟩ := List.forall_mem_cons.mp h
    rw [serializeStructVariantFields, SerializeStructVariant.serializeField, List.forall_mem_cons]
    refine Settles.bind (hvalue.bind_ok ?_) fun self hself ↦ ih hvalues self hself
    exact fun v hv ↦ hself.insert key hv

theorem serializeEntry_settles {key value : Data} (h : PartSettles value) (self : SerializeMap)
    (hself : CleanMap self.map) :
    Settles (IsKey key = true ∧ Supported value) (serializeCalls (entry key value) self)
      (fun self ↦ CleanMap self.map) := by
  simp only [entry, serializeCalls, serializeCall, SerializeMap.serializeKey]
  have hkey : Settles (IsKey key = true)
      (toKey key >>= fun key ↦ ok { self with nextKey := some key })
      (fun self' ↦ ∃ key, self' = { self with nextKey := some key }) :=
    (toKey_settles key).bind_ok fun key _ ↦ ⟨key, rfl⟩
  refine hkey.bind ?_
  rintro _ ⟨key, rfl⟩
  exact (serializeValue_settles h self hself key).bind_ok fun _ h ↦ h

theorem serializeEntries_settles {entries : List (Data × Data)}
    (h : ∀ e ∈ entries, PartSettles e.2) (self : SerializeMap) (hself : CleanMap self.map) :
    Settles (∀ e ∈ entries, IsKey e.1 = true ∧ Supported e.2)
      (serializeCalls (entries.flatMap fun e ↦ entry e.1 e.2) self)
      (fun self ↦ CleanMap self.map) := by
  induction entries generalizing self with
  | nil => exact .ok (by simp) hself
  | cons e entries ih =>
    obtain ⟨he, hentries⟩ := List.forall_mem_cons.mp h
    rw [List.flatMap_cons, serializeCalls_append, List.forall_mem_cons]
    exact (serializeEntry_settles he self hself).bind fun self hself ↦ ih hentries self hself

theorem parts_entries (len : Option ℕ) (entries : List (Data × Data)) :
    (Data.map len (entries.flatMap fun e ↦ entry e.1 e.2)).parts = entries.map Prod.snd ∧
      (Data.map len (entries.flatMap fun e ↦ entry e.1 e.2)).keys = entries.map Prod.fst := by
  simp only [Data.parts, Data.keys]
  induction entries with
  | nil => exact ⟨rfl, rfl⟩
  | cons e entries ih => simpa [entry] using ih

theorem clean_single {name : Str} {v : Value} (h : Clean v) :
    Clean (.object (IndexMap.insert name v [])) :=
  (CleanMap.nil.insert name h).object

theorem toValue_settles {d : Data} (h : Paired d) : PartSettles d := by
  induction d using Data.induct with
  | step d ih =>
    cases h with
    | intro halternates hparts =>
      have hih : ∀ c ∈ d.parts, PartSettles c := fun c hc ↦ ih c hc (hparts c hc)
      rw [PartSettles]
      have hsupported := supported_iff (d := d)
      cases d with
      | newtypeStruct name value =>
        refine Settles.congr (hih value (by simp [Data.parts])) ?_
        simp [hsupported, IsWide, Data.keys, Data.parts]
      | some value =>
        refine Settles.congr (hih value (by simp [Data.parts])) ?_
        simp [hsupported, IsWide, Data.keys, Data.parts]
      | newtypeVariant name variantIndex variant value =>
        have hvalue := hih value (by simp [Data.parts])
        refine Settles.congr (hvalue.bind_ok fun v hv ↦ clean_single hv) ?_
        simp [hsupported, IsWide, Data.keys, Data.parts]
      | seq | tuple | tupleStruct =>
        refine Settles.congr ((serializeElements_settles hih _ (by simp [Serializer.serializeSeq,
          Serializer.serializeTuple, Serializer.serializeTupleStruct])).map fun _ h ↦ .array h) ?_
        simp [hsupported, IsWide, Data.keys, Data.parts]
      | tupleVariant name variantIndex variant fields =>
        have hfields := serializeVariantFields_settles hih
          (Serializer.serializeTupleVariant name variantIndex variant fields.length)
          (by simp [Serializer.serializeTupleVariant])
        refine Settles.congr (hfields.map fun _ h ↦ clean_single (.array h)) ?_
        simp [hsupported, IsWide, Data.keys, Data.parts]
      | map len calls =>
        obtain ⟨entries, rfl⟩ := halternates
        obtain ⟨hparts', hkeys'⟩ := parts_entries len entries
        rw [hparts', hkeys'] at hsupported
        rw [hparts'] at hih
        have hentries := serializeEntries_settles
          (fun e he ↦ hih e.2 (List.mem_map_of_mem he)) (Serializer.serializeMap len) CleanMap.nil
        refine Settles.congr (hentries.map fun _ h ↦ h.object) ?_
        simp only [hsupported, IsWide, List.forall_mem_map]
        exact ⟨fun h ↦ ⟨trivial, fun e he ↦ (h e he).1, fun e he ↦ (h e he).2⟩,
          fun h e he ↦ ⟨h.2.1 e he, h.2.2 e he⟩⟩
      | struct name len fields =>
        have hfields := serializeFields_settles hih (Serializer.serializeStruct name len)
          CleanMap.nil
        refine Settles.congr (hfields.map fun _ h ↦ h.object) ?_
        simp [hsupported, IsWide, Data.keys, Data.parts]
      | structVariant name variantIndex variant len fields =>
        have hfields := serializeStructVariantFields_settles hih
          (Serializer.serializeStructVariant name variantIndex variant len) CleanMap.nil
        refine Settles.congr (hfields.map fun _ h ↦ clean_single h.object) ?_
        simp [hsupported, IsWide, Data.keys, Data.parts]
      | f32 value | f64 value =>
        refine .ok (.leaf rfl rfl rfl) ?_
        cases Json.Number.fromF64 value with
        | some n => exact .number n
        | none => exact .null
      | bool b => exact .ok (.leaf rfl rfl rfl) (.bool b)
      | i8 | i16 | i32 | i64 | u8 | u16 | u32 | u64 => exact .ok (.leaf rfl rfl rfl) (.number _)
      | i128 | u128 => exact .inr ⟨by simp [hsupported, IsWide], rfl⟩
      | char | str | collectStr | unitVariant => exact .ok (.leaf rfl rfl rfl) (.string _)
      | bytes data => exact .ok (.leaf rfl rfl rfl) (.binary data)
      | unit | unitStruct | none => exact .ok (.leaf rfl rfl rfl) .null

/-- The serializer turns data whose map keys are texts or integers into a value without
repeated keys, answers its one error for all other data and for integers of 128 bits, and
never panics. -/
theorem toValue_total {d : Data} (h : Paired d) :
    (∃ v, toValue d = ok v ∧ v.DistinctKeys ∧ Supported d) ∨
      (toValue d = err ⟨⟩ ∧ ¬ Supported d) := by
  rcases toValue_settles h with ⟨hsupported, v, hv, hclean⟩ | ⟨hsupported, herr⟩
  · exact .inl ⟨v, hv, hclean, hsupported⟩
  · exact .inr ⟨herr, hsupported⟩

/-- A struct with a map from one key to a number in a list. -/
def flags (key : Data) : Data :=
  .struct "S".toList 1 [("flags".toList, .seq true [.map none (entry key (.u8 1))])]

theorem paired_flags (key : Data) : Paired (flags key) := by
  have hmap : Paired (.map none (entry key (.u8 1))) :=
    .intro ⟨[(key, .u8 1)], rfl⟩ fun c hc ↦ by
      obtain rfl : c = .u8 1 := by simpa [Data.parts, entry] using hc
      exact .intro trivial (by simp [Data.parts])
  have hseq : Paired (.seq true [.map none (entry key (.u8 1))]) :=
    .intro trivial (List.forall_mem_singleton.mpr hmap)
  exact .intro trivial (List.forall_mem_singleton.mpr hseq)

/-- A text can be the key of the map, a boolean cannot. -/
theorem toValue_total_flags :
    (∃ v, toValue (flags (.str "on".toList)) = ok v ∧ v.DistinctKeys ∧
      Supported (flags (.str "on".toList))) ∧
    toValue (flags (.bool true)) = err ⟨⟩ ∧ ¬ Supported (flags (.bool true)) := by
  constructor
  · refine (toValue_total (paired_flags _)).resolve_right ?_
    rintro ⟨herr, -⟩
    simp only [flags, entry, toValue, serializeFields, serializeElements, serializeCalls,
      serializeCall] at herr
    cases herr
  · refine (toValue_total (paired_flags _)).resolve_left ?_
    rintro ⟨v, hv, -⟩
    simp only [flags, entry, toValue, serializeFields, serializeElements, serializeCalls,
      serializeCall] at hv
    cases hv

end Ser

end SocketIoRust.SocketIoParser
