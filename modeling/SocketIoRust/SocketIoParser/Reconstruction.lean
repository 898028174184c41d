import SocketIoRust.SocketIoParser.Placeholders
import SocketIoRust.SocketIoParser.MultipartPacket

namespace SocketIoRust.SocketIoParser

open Library PacketDataValue DefaultEncoder DefaultDecoder

mutual

/-- `Filled j ws v`: the data `v` are the JSON `j` with its placeholders replaced by `ws`, in
their order, and all else as it is. -/
inductive Filled : JsonValue → List PacketDataValue → PacketDataValue → Prop
  | null : Filled .null [] .null
  | bool (b : Bool) : Filled (.bool b) [] (.bool b)
  | number (n : Json.Number) : Filled (.number n) [] (.number n)
  | string (s : Str) : Filled (.string s) [] (.string s)
  | array {values : List JsonValue} {ws vs : List PacketDataValue} :
      FilledElements values ws vs → Filled (.array values) ws (.array vs)
  | placeholder {entries : List (Str × JsonValue)} {index : ℕ} (w : PacketDataValue) :
      getAttachmentIndexIfPlaceholder entries = some index → Filled (.object entries) [w] w
  | object {entries : List (Str × JsonValue)} {ws : List PacketDataValue}
      {es : List (Str × PacketDataValue)} :
      getAttachmentIndexIfPlaceholder entries = none → FilledEntries entries ws es →
      Filled (.object entries) ws (.object es)

inductive FilledElements : List JsonValue → List PacketDataValue → List PacketDataValue → Prop
  | nil : FilledElements [] [] []
  | cons {value : JsonValue} {values : List JsonValue} {ws ws' vs : List PacketDataValue}
      {v : PacketDataValue} :
      Filled value ws v → FilledElements values ws' vs →
      FilledElements (value :: values) (ws ++ ws') (v :: vs)

inductive FilledEntries : List (Str × JsonValue) → List PacketDataValue →
    List (Str × PacketDataValue) → Prop
  | nil : FilledEntries [] [] []
  | cons {key : Str} {value : JsonValue} {entries : List (Str × JsonValue)}
      {ws ws' : List PacketDataValue} {v : PacketDataValue} {es : List (Str × PacketDataValue)} :
      Filled value ws v → FilledEntries entries ws' es →
      FilledEntries ((key, value) :: entries) (ws ++ ws') ((key, v) :: es)

end

/-- What a placeholder becomes: the attachment that it is given, if there is one. -/
def attachmentOrNull : Option Bytes → PacketDataValue
  | some data => .binary data
  | none => .null

/-- The placeholders that name `indices` take their attachments one after another. -/
def takeAll : List ℕ → Attachments → List PacketDataValue × Attachments
  | [], attachments => ([], attachments)
  | index :: indices, attachments =>
    let (data, attachments) := attachments.remove index
    let (values, attachments) := takeAll indices attachments
    (attachmentOrNull data :: values, attachments)

theorem takeAll_append (is js : List ℕ) (attachments : Attachments) :
    takeAll (is ++ js) attachments =
      ((takeAll is attachments).1 ++ (takeAll js (takeAll is attachments).2).1,
        (takeAll js (takeAll is attachments).2).2) := by
  induction is generalizing attachments with
  | nil => rfl
  | cons index is ih =>
    simp only [List.cons_append, takeAll]
    rw [ih]

/-- The values of the first placeholder to name an index and of the others. -/
theorem getElem_takeAll (indices : List ℕ) (attachments : Attachments) (i : ℕ) :
    (takeAll indices attachments).1[i]? = indices[i]?.map (fun index ↦
      if index ∈ indices.take i then .null
      else attachmentOrNull (IndexMap.get index attachments)) := by
  induction indices generalizing attachments i with
  | nil => simp [takeAll]
  | cons first indices ih =>
    simp only [takeAll]
    cases i with
    | zero => simp [Attachments.remove]
    | succ i =>
      rw [List.getElem?_cons_succ, List.getElem?_cons_succ, ih, List.take_succ_cons]
      congr 1
      funext index
      have hget : IndexMap.get index (attachments.remove first).2 =
          if index = first then none else IndexMap.get index attachments :=
        IndexMap.get_erase first index attachments
      rw [hget]
      by_cases hf : index = first
      · simp [hf, attachmentOrNull]
      · simp [hf]

/-- The decoder takes the attachments as the placeholders come and keeps everything else. -/
def Takes (j : JsonValue) : Prop :=
  ∀ attachments : Attachments,
    Filled j (takeAll (placeholders j) attachments).1 (reconstructPacketData j attachments).1 ∧
      (reconstructPacketData j attachments).2 = (takeAll (placeholders j) attachments).2

theorem takes_elements {values : List JsonValue} (h : ∀ j ∈ values, Takes j)
    (attachments : Attachments) :
    FilledElements values (takeAll (placeholdersOfElements values) attachments).1
        (reconstructElements values attachments).1 ∧
      (reconstructElements values attachments).2 =
        (takeAll (placeholdersOfElements values) attachments).2 := by
  induction values generalizing attachments with
  | nil => exact ⟨.nil, rfl⟩
  | cons value values ih =>
    rw [List.forall_mem_cons] at h
    obtain ⟨hfirst, hleft⟩ := h.1 attachments
    obtain ⟨hlater, hlast⟩ := ih h.2 (takeAll (placeholders value) attachments).2
    simp only [reconstructElements, placeholdersOfElements]
    rw [takeAll_append, hleft]
    exact ⟨.cons hfirst hlater, hlast⟩

theorem takes_entries {entries : List (Str × JsonValue)} (h : ∀ e ∈ entries, Takes e.2)
    (attachments : Attachments) :
    FilledEntries entries (takeAll (placeholdersOfEntries entries) attachments).1
        (reconstructEntries entries attachments).1 ∧
      (reconstructEntries entries attachments).2 =
        (takeAll (placeholdersOfEntries entries) attachments).2 := by
  induction entries generalizing attachments with
  | nil => exact ⟨.nil, rfl⟩
  | cons e entries ih =>
    rw [List.forall_mem_cons] at h
    obtain ⟨hfirst, hleft⟩ := h.1 attachments
    obtain ⟨hlater, hlast⟩ := ih h.2 (takeAll (placeholders e.2) attachments).2
    simp only [reconstructEntries, placeholdersOfEntries]
    rw [takeAll_append, hleft]
    exact ⟨.cons hfirst hlater, hlast⟩

theorem FilledEntries.keys {entries : List (Str × JsonValue)} {ws : List PacketDataValue}
    {es : List (Str × PacketDataValue)} (h : FilledEntries entries ws es) :
    es.map Prod.fst = entries.map Prod.fst := by
  induction entries generalizing ws es with
  | nil =>
    cases h
    rfl
  | cons e entries ih =>
    cases h with
    | cons hv hes => rw [List.map_cons, List.map_cons, ih hes]

theorem takes_placeholder {entries : List (Str × JsonValue)} {index : ℕ}
    (h : getAttachmentIndexIfPlaceholder entries = some index) : Takes (.object entries) := by
  intro attachments
  have hplaceholders : placeholders (.object entries) = [index] := by
    rw [placeholders, h]
  have htake : takeAll [index] attachments =
      ([attachmentOrNull (attachments.remove index).1], (attachments.remove index).2) := rfl
  have hreconstruct : reconstructPacketData (.object entries) attachments =
      (attachmentOrNull (attachments.remove index).1, (attachments.remove index).2) := by
    rw [reconstructPacketData, h]
    dsimp only
    cases attachments.remove index with
    | mk data rest => cases data <;> rfl
  rw [hplaceholders, htake, hreconstruct]
  exact ⟨.placeholder _ h, rfl⟩

theorem takes_of_wellFormed {j : JsonValue} (hj : j.WellFormed) : Takes j := by
  induction j using Json.Value.induct with
  | null => exact fun _ ↦ ⟨.null, rfl⟩
  | bool b => exact fun _ ↦ ⟨.bool b, rfl⟩
  | number n => exact fun _ ↦ ⟨.number n, rfl⟩
  | string s => exact fun _ ↦ ⟨.string s, rfl⟩
  | array values ih =>
    cases hj with
    | array hvalues =>
      intro attachments
      obtain ⟨hfilled, hlast⟩ := takes_elements (fun j hm ↦ ih j hm (hvalues j hm)) attachments
      exact ⟨.array hfilled, hlast⟩
  | object entries ih =>
    cases hj with
    | object hkeys hentries =>
      cases hindex : getAttachmentIndexIfPlaceholder entries with
      | some index => exact takes_placeholder hindex
      | none =>
        intro attachments
        obtain ⟨hfilled, hlast⟩ := takes_entries (fun e hm ↦ ih e hm (hentries e hm)) attachments
        rw [placeholders, reconstructPacketData, hindex]
        dsimp only
        rw [IndexMap.collect_of_nodup (by rwa [hfilled.keys])]
        exact ⟨.object hindex hfilled, hlast⟩

/-- The value for each placeholder: the buffer that it names, if it is the first to do so
and there is the buffer. -/
def replacements (buffers : List Bytes) (indices : List ℕ) : List PacketDataValue :=
  indices.mapIdx (fun i index ↦
    if index ∈ indices.take i then .null else attachmentOrNull buffers[index]?)

/-- The received buffers by their index. -/
def attachmentMap (buffers : List Bytes) : Attachments := buffers.zipIdx.map Prod.swap

theorem foldl_insert_zipIdx (buffers : List Bytes) :
    buffers.zipIdx.foldl (fun acc e ↦ IndexMap.insert e.2 e.1 acc) [] = attachmentMap buffers := by
  have hnodup : ((buffers.zipIdx.map Prod.swap).map Prod.fst).Nodup := by
    have hindex : (buffers.zipIdx.map Prod.swap).map Prod.fst = List.range' 0 buffers.length := by
      rw [List.map_map]
      exact List.zipIdx_map_snd 0 buffers
    rw [hindex]
    exact List.nodup_range'
  have h := IndexMap.collect_of_nodup hnodup
  unfold IndexMap.collect at h
  rwa [List.foldl_map] at h

/-- A complete packet has the data of its header, with the buffers by their index. -/
theorem DefaultDecoder.collectPacket_eq (decoder : DefaultDecoder) :
    decoder.collectPacket = if decoder.canCollect then
      some ⟨decoder.header.packetType.toPacketType, decoder.header.id,
        decoder.header.nsp.getD ['/'],
        (reconstructPacketData decoder.header.data (attachmentMap decoder.buffer)).1⟩
    else none := by
  rw [DefaultDecoder.collectPacket]
  simp only [foldl_insert_zipIdx]

theorem get_zipIdx (buffers : List Bytes) (n index : ℕ) :
    IndexMap.get index ((buffers.zipIdx n).map Prod.swap) =
      if n ≤ index then buffers[index - n]? else none := by
  induction buffers generalizing n with
  | nil => simp [IndexMap.get]
  | cons data buffers ih =>
    rw [List.zipIdx_cons, List.map_cons, IndexMap.get, ih]
    rcases Nat.lt_trichotomy n index with hlt | rfl | hgt
    · have hsub : index - n = (index - (n + 1)) + 1 := by omega
      have hne : ¬ (Prod.swap (data, n)).1 = index := Nat.ne_of_lt hlt
      rw [if_neg hne, if_pos (Nat.succ_le_of_lt hlt), if_pos hlt.le, hsub, List.getElem?_cons_succ]
    · simp
    · have hne : ¬ (Prod.swap (data, n)).1 = index := Nat.ne_of_gt hgt
      rw [if_neg hne, if_neg (by omega), if_neg (by omega)]

theorem get_attachmentMap (buffers : List Bytes) (index : ℕ) :
    IndexMap.get index (attachmentMap buffers) = buffers[index]? := by
  rw [attachmentMap, get_zipIdx, if_pos (Nat.zero_le index), Nat.sub_zero]

theorem takeAll_attachmentMap (buffers : List Bytes) (indices : List ℕ) :
    (takeAll indices (attachmentMap buffers)).1 = replacements buffers indices := by
  apply List.ext_getElem?
  intro i
  rw [getElem_takeAll, replacements, List.getElem?_mapIdx]
  congr 1
  funext index
  rw [get_attachmentMap]

def IsAttachment (w : PacketDataValue) : Prop := ∃ data, w = attachmentOrNull data

theorem isAttachment_of_mem_replacements {buffers : List Bytes} {indices : List ℕ}
    {w : PacketDataValue} (h : w ∈ replacements buffers indices) : IsAttachment w := by
  rw [replacements, List.mem_mapIdx] at h
  obtain ⟨i, hi, rfl⟩ := h
  split
  · exact ⟨none, rfl⟩
  · exact ⟨_, rfl⟩

theorem IsAttachment.placeholderFree {w : PacketDataValue} (h : IsAttachment w) :
    PlaceholderFree w := by
  obtain ⟨data, rfl⟩ := h
  cases data with
  | some data => exact .binary data
  | none => exact .null

theorem FilledEntries.get {entries : List (Str × JsonValue)} {ws : List PacketDataValue}
    {es : List (Str × PacketDataValue)} (h : FilledEntries entries ws es) {key : Str}
    {v : PacketDataValue} (hget : IndexMap.get key es = some v) :
    ∃ j ws', IndexMap.get key entries = some j ∧ Filled j ws' v ∧ ∀ w ∈ ws', w ∈ ws := by
  induction entries generalizing ws es with
  | nil =>
    cases h
    cases hget
  | cons e entries ih =>
    cases h with
    | @cons key' value _ ws₁ ws₂ v' es hv hes =>
    rw [IndexMap.get] at hget
    rw [IndexMap.get]
    split at hget
    · rename_i hkey
      cases hget
      rw [if_pos hkey]
      exact ⟨value, ws₁, rfl, hv, fun w hw ↦ List.mem_append_left ws₂ hw⟩
    · rename_i hkey
      rw [if_neg hkey]
      obtain ⟨j, ws', hj, hfilled, hmem⟩ := ih hes hget
      exact ⟨j, ws', hj, hfilled, fun w hw ↦ List.mem_append_right ws₁ (hmem w hw)⟩

/-- A scalar of the data was that scalar in the JSON. -/
theorem Filled.bool_inv {j : JsonValue} {ws : List PacketDataValue} {b : Bool}
    (h : Filled j ws (.bool b)) (hws : ∀ w ∈ ws, IsAttachment w) : j = .bool b := by
  cases h with
  | bool => rfl
  | placeholder _ hindex =>
    obtain ⟨data, hdata⟩ := hws _ (List.mem_singleton.mpr rfl)
    cases data <;> cases hdata

theorem Filled.number_inv {j : JsonValue} {ws : List PacketDataValue} {n : Json.Number}
    (h : Filled j ws (.number n)) (hws : ∀ w ∈ ws, IsAttachment w) : j = .number n := by
  cases h with
  | number => rfl
  | placeholder _ hindex =>
    obtain ⟨data, hdata⟩ := hws _ (List.mem_singleton.mpr rfl)
    cases data <;> cases hdata

/-- An object that was no placeholder has not become one. -/
theorem FilledEntries.not_placeholder {entries : List (Str × JsonValue)}
    {ws : List PacketDataValue} {es : List (Str × PacketDataValue)}
    (h : FilledEntries entries ws es) (hws : ∀ w ∈ ws, IsAttachment w)
    (hnone : getAttachmentIndexIfPlaceholder entries = none) : isPlaceholder es = false := by
  rw [isPlaceholder]
  split
  swap
  · rfl
  rename_i marker index hmarker hindex
  obtain ⟨j, ws₁, hj, hfilled, hmem⟩ := h.get hmarker
  obtain ⟨j', ws₂, hj', hfilled', hmem'⟩ := h.get hindex
  rw [hfilled.bool_inv (fun w hw ↦ hws w (hmem w hw))] at hj
  rw [hfilled'.number_inv (fun w hw ↦ hws w (hmem' w hw))] at hj'
  rw [getAttachmentIndexIfPlaceholder, hj, hj'] at hnone
  cases marker with
  | false => rfl
  | true =>
    simp only [if_true, Option.map_eq_none_iff] at hnone
    rw [hnone]
    rfl

theorem FilledEntries.elements {entries : List (Str × JsonValue)} {ws : List PacketDataValue}
    {es : List (Str × PacketDataValue)} (h : FilledEntries entries ws es) :
    FilledElements (entries.map Prod.snd) ws (es.map Prod.snd) := by
  induction entries generalizing ws es with
  | nil =>
    cases h
    exact .nil
  | cons e entries ih =>
    cases h with
    | cons hv hes => exact .cons hv (ih hes)

theorem FilledElements.exists_of_mem {values : List JsonValue} {ws vs : List PacketDataValue}
    (h : FilledElements values ws vs) {v : PacketDataValue} (hv : v ∈ vs) :
    ∃ j ∈ values, ∃ ws', Filled j ws' v ∧ ∀ w ∈ ws', w ∈ ws := by
  induction values generalizing ws vs with
  | nil =>
    cases h
    cases hv
  | cons value values ih =>
    cases h with
    | @cons _ _ ws₁ ws₂ vs v' hfirst hlater =>
    rcases List.mem_cons.mp hv with rfl | hv
    · exact ⟨value, .head _, ws₁, hfirst, fun w hw ↦ List.mem_append_left ws₂ hw⟩
    · obtain ⟨j, hj, ws', hfilled, hmem⟩ := ih hlater hv
      exact ⟨j, .tail _ hj, ws', hfilled, fun w hw ↦ List.mem_append_right ws₁ (hmem w hw)⟩

/-- If attachments are filled in, no placeholder is left. -/
theorem Filled.placeholderFree {j : JsonValue} {ws : List PacketDataValue} {v : PacketDataValue}
    (h : Filled j ws v) (hws : ∀ w ∈ ws, IsAttachment w) : PlaceholderFree v := by
  induction j using Json.Value.induct generalizing ws v with
  | null =>
    cases h
    exact .null
  | bool b =>
    cases h
    exact .bool b
  | number n =>
    cases h
    exact .number n
  | string s =>
    cases h
    exact .string s
  | array values ih =>
    cases h with
    | array hvs =>
    refine .array fun v hv ↦ ?_
    obtain ⟨j, hj, ws', hfilled, hmem⟩ := hvs.exists_of_mem hv
    exact ih j hj hfilled (fun w hw ↦ hws w (hmem w hw))
  | object entries ih =>
    cases h with
    | placeholder _ hindex => exact (hws v (List.mem_singleton.mpr rfl)).placeholderFree
    | object hindex hes =>
    refine .object (hes.not_placeholder hws hindex) fun e he ↦ ?_
    obtain ⟨j, hj, ws', hfilled, hmem⟩ := hes.elements.exists_of_mem (List.mem_map_of_mem he)
    obtain ⟨e', he', rfl⟩ := List.mem_map.mp hj
    exact ih e' he' hfilled (fun w hw ↦ hws w (hmem w hw))

theorem FilledElements.leaves {values : List JsonValue}
    (h : ∀ j ∈ values, ∀ ws v, Filled j ws v → binaryLeaves v = ws.flatMap binaryLeaves)
    {ws vs : List PacketDataValue} (hvs : FilledElements values ws vs) :
    leavesOfElements vs = ws.flatMap binaryLeaves := by
  induction values generalizing ws vs with
  | nil =>
    cases hvs
    rfl
  | cons value values ih =>
    rw [List.forall_mem_cons] at h
    cases hvs with
    | cons hfirst hlater =>
    rw [leavesOfElements, h.1 _ _ hfirst, ih h.2 hlater, List.flatMap_append]

/-- The binary leaves are those that were filled in. -/
theorem Filled.leaves {j : JsonValue} {ws : List PacketDataValue} {v : PacketDataValue}
    (h : Filled j ws v) : binaryLeaves v = ws.flatMap binaryLeaves := by
  induction j using Json.Value.induct generalizing ws v with
  | null =>
    cases h
    rfl
  | bool b =>
    cases h
    rfl
  | number n =>
    cases h
    rfl
  | string s =>
    cases h
    rfl
  | array values ih =>
    cases h with
    | array hvs => exact hvs.leaves (fun j hj _ _ ↦ ih j hj)
  | object entries ih =>
    cases h with
    | placeholder _ hindex => simp
    | object hindex hes =>
    rw [binaryLeaves_object]
    exact hes.elements.leaves (List.forall_mem_map.mpr (fun e he _ _ ↦ ih e he))

theorem takeAll_leaves (indices : List ℕ) (attachments : Attachments) :
    ∃ ks : List ℕ, ks.Nodup ∧ (∀ k ∈ ks, IndexMap.get k attachments ≠ none) ∧
      ((takeAll indices attachments).1.flatMap binaryLeaves).map some =
        ks.map (fun k ↦ IndexMap.get k attachments) := by
  induction indices generalizing attachments with
  | nil => exact ⟨[], List.nodup_nil, by simp, rfl⟩
  | cons first indices ih =>
    obtain ⟨ks, hnodup, hks, hleaves⟩ := ih (attachments.remove first).2
    have hget (k : ℕ) : IndexMap.get k (attachments.remove first).2 =
        if k = first then none else IndexMap.get k attachments :=
      IndexMap.get_erase first k attachments
    have hne : ∀ k ∈ ks, k ≠ first ∧ IndexMap.get k attachments ≠ none := by
      intro k hk
      have hsome := hks k hk
      rw [hget] at hsome
      split at hsome
      · exact absurd rfl hsome
      · exact ⟨‹_›, hsome⟩
    have hmap : ks.map (fun k ↦ IndexMap.get k (attachments.remove first).2) =
        ks.map (fun k ↦ IndexMap.get k attachments) :=
      List.map_congr_left (fun k hk ↦ by rw [hget, if_neg (hne k hk).1])
    rw [hmap] at hleaves
    simp only [takeAll, List.flatMap_cons, List.map_append, hleaves]
    cases hfirst : IndexMap.get first attachments with
    | none =>
      refine ⟨ks, hnodup, fun k hk ↦ (hne k hk).2, ?_⟩
      simp [Attachments.remove, hfirst, attachmentOrNull, binaryLeaves]
    | some data =>
      refine ⟨first :: ks, ?_, ?_, ?_⟩
      · exact List.nodup_cons.mpr ⟨fun hk ↦ (hne first hk).1 rfl, hnodup⟩
      · rw [List.forall_mem_cons]
        exact ⟨by simp [hfirst], fun k hk ↦ (hne k hk).2⟩
      · simp [Attachments.remove, hfirst, attachmentOrNull, binaryLeaves]

/-- Whatever header a client sends, the first placeholder to name a buffer becomes it, the
others become null and everything else stays; no buffer is used twice and no placeholder
is left. -/
theorem reconstructPacketData_fills (j : JsonValue) (hj : j.WellFormed) (buffers : List Bytes) :
    Filled j (replacements buffers (placeholders j))
        (reconstructPacketData j (attachmentMap buffers)).1 ∧
      PlaceholderFree (reconstructPacketData j (attachmentMap buffers)).1 ∧
      ∃ ks : List ℕ, ks.Nodup ∧
        (binaryLeaves (reconstructPacketData j (attachmentMap buffers)).1).map some =
          ks.map (fun k ↦ buffers[k]?) := by
  obtain ⟨hfilled, -⟩ := takes_of_wellFormed hj (attachmentMap buffers)
  obtain ⟨ks, hnodup, -, hleaves⟩ := takeAll_leaves (placeholders j) (attachmentMap buffers)
  rw [takeAll_attachmentMap] at hfilled hleaves
  refine ⟨hfilled, hfilled.placeholderFree (fun _ ↦ isAttachment_of_mem_replacements), ks,
    hnodup, ?_⟩
  rw [hfilled.leaves, hleaves]
  exact List.map_congr_left (fun k _ ↦ get_attachmentMap buffers k)

/-- The header `["e",{"_placeholder":true,"num":0},{"_placeholder":true,"num":0}]`. -/
def repeated : JsonValue :=
  .array [.string ['e'], makePlaceholder 0, makePlaceholder 0]

theorem repeated_wellFormed : repeated.WellFormed := by
  refine .array ?_
  simp only [List.forall_mem_cons]
  exact ⟨.string _, makePlaceholder_wellFormed 0, makePlaceholder_wellFormed 0, by simp⟩

theorem reconstructPacketData_fills_repeated :
    Filled repeated (replacements [[1]] (placeholders repeated))
        (reconstructPacketData repeated (attachmentMap [[1]])).1 ∧
      PlaceholderFree (reconstructPacketData repeated (attachmentMap [[1]])).1 ∧
      ∃ ks : List ℕ, ks.Nodup ∧
        (binaryLeaves (reconstructPacketData repeated (attachmentMap [[1]])).1).map some =
          ks.map (fun k ↦ ([[1]] : List Bytes)[k]?) :=
  reconstructPacketData_fills repeated repeated_wellFormed [[1]]

end SocketIoRust.SocketIoParser
