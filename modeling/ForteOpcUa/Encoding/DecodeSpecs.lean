import ForteOpcUa.Encoding.EncodeSpecs

/-!
# DecodeSpecs — the decoders read the wire format

`reads`: wherever the bytes of a parseable value stand in a buffer, the decoder of its type reads
the normal form of the value from them.  One lemma for each decoder, then induction over the value;
the variants inside are read by a decoder that may go as deep as there are bytes.
-/

namespace ForteOpcUa

namespace Encoding

open Memory Serial

/-- A block of any size below the limit is granted. -/
def Heap.Ample (heap : Heap) : Prop :=
  ∀ size < 2 ^ 31, heap size = true

/-! ## Integers -/

theorem reads_copyOut (bs : ByteString) : Reads offsetLimit (copyOut bs.length) bs bs := by
  intro pre post _
  rw [copyOut, slice_append]

theorem reads_integer {k n : ℕ} (hn : n < 256 ^ k) :
    Reads offsetLimit (decodeInteger k) (toBytes k n) n := by
  intro pre post hlim
  have hk := length_toBytes k n
  have hcopy := ((reads_copyOut (toBytes k n)).map ofBytes) pre post hlim
  have hlim := lt_offsetLimit hlim
  simp only [List.length_append] at hlim
  have hno : ¬ ((pre ++ (toBytes k n ++ post)).length : ℤ) < int32 (pre.length + k : ℕ) := by
    rw [int32_natCast (by omega)]
    simp only [List.length_append]
    omega
  rw [ofBytes_toBytes, Nat.mod_eq_of_lt hn, hk] at hcopy
  rw [decodeInteger, if_neg hno, hk]
  exact hcopy

theorem reads_byte (x : UInt8) : Reads offsetLimit Byte.decodeBinary [x] x := by
  have h := (reads_integer (by simpa using x.toNat_lt : x.toNat < 256 ^ 1)).map UInt8.ofNat
  rw [toBytes_one, UInt8.ofNat_toNat] at h
  exact h

theorem reads_uInt16 (x : UInt16) :
    Reads offsetLimit UInt16.decodeBinary (toBytes 2 x.toNat) x := by
  have h := (reads_integer (by simpa using x.toNat_lt : x.toNat < 256 ^ 2)).map UInt16.ofNat
  rw [UInt16.ofNat_toNat] at h
  exact h

theorem reads_uInt32 (x : UInt32) :
    Reads offsetLimit UInt32.decodeBinary (toBytes 4 x.toNat) x := by
  have h := (reads_integer (by simpa using x.toNat_lt : x.toNat < 256 ^ 4)).map UInt32.ofNat
  rw [UInt32.ofNat_toNat] at h
  exact h

theorem reads_uInt64 (x : UInt64) :
    Reads offsetLimit UInt64.decodeBinary (toBytes 8 x.toNat) x := by
  have h := (reads_integer (by simpa using x.toNat_lt : x.toNat < 256 ^ 8)).map UInt64.ofNat
  rw [UInt64.ofNat_toNat] at h
  exact h

/-- A signed number comes back from its 32 bits. -/
theorem int32_u32 {x : ℤ} (hlo : -2 ^ 31 ≤ x) (hhi : x < 2 ^ 31) : int32 (u32 x) = x := by
  have hcast : ((u32 x : ℕ) : ℤ) = x % 2 ^ 32 := by
    unfold u32
    omega
  have hmod : Int.bmod (x % 2 ^ 32) (2 ^ 32) = Int.bmod x (2 ^ 32) := Int.emod_bmod x (2 ^ 32)
  rw [hcast, int32, hmod]
  exact int32_eq hlo hhi

theorem reads_int32 {x : ℤ} (hlo : -2 ^ 31 ≤ x) (hhi : x < 2 ^ 31) :
    Reads offsetLimit Int32.decodeBinary (int32Bytes x) x := by
  have hlt : u32 x < 256 ^ 4 := by
    unfold u32
    omega
  have h := (reads_integer hlt).map fun n : ℕ => int32 n
  simp only [int32_u32 hlo hhi] at h
  exact h

/-! ## Texts -/

section Texts

variable {heap : Heap}

/-- The length of a text that stands in a buffer. -/
theorem Text.length_bounds {s : Text} (h : s.data.length < 2 ^ 31) :
    -2 ^ 31 ≤ s.length ∧ s.length < 2 ^ 31 := by
  match s, h with
  | none, _ => exact ⟨by decide, by decide⟩
  | some bs, h =>
      have hlt : bs.length < 2 ^ 31 := h
      simp only [Text.length]
      omega

theorem reads_decodeData (hheap : heap.Ample) (s : Text) :
    Reads offsetLimit (Text.decodeData heap s.length) s.data s := by
  match s with
  | none =>
      rw [Text.decodeData, if_pos (by decide)]
      exact Reads.yield none
  | some [] =>
      rw [Text.decodeData, if_neg (by decide), if_pos (by decide)]
      exact Reads.yield (some [])
  | some (b :: bs) =>
      intro pre post hlim
      have hcopy := ((reads_copyOut (b :: bs)).map some) pre post hlim
      have hlim := lt_offsetLimit hlim
      have hlen : Text.length (some (b :: bs)) = ((bs.length + 1 : ℕ) : ℤ) := rfl
      have hdata : Text.data (some (b :: bs)) = b :: bs := rfl
      simp only [hdata, List.length_append, List.length_cons] at hlim
      have hno : ¬ ((pre ++ (b :: bs ++ post)).length : ℤ) <
          int32 (int32 pre.length + ((bs.length + 1 : ℕ) : ℤ)) := by
        rw [int32_natCast (by omega), ← Nat.cast_add, int32_natCast (by omega)]
        simp only [List.length_append, List.length_cons]
        omega
      have hgrant : heap (bs.length + 1) = true := hheap _ (by omega)
      rw [hlen, hdata, Text.decodeData, if_neg (by omega), if_neg (by omega)]
      simp only [if_neg hno, Int.toNat_natCast, hgrant, if_true]
      exact hcopy

theorem reads_text (hheap : heap.Ample) (s : Text) :
    Reads offsetLimit (Text.decodeBinary heap) s.bytes s := by
  intro pre post hlim
  have hlim' := lt_offsetLimit hlim
  simp only [List.length_append, s.length_bytes] at hlim'
  rcases Text.length_bounds (by omega : s.data.length < 2 ^ 31) with ⟨hlo, hhi⟩
  have hlength := (reads_int32 hlo hhi).orRefuse StatusCode.badInternalError
  exact hlength.andThen (reads_decodeData hheap s) pre post hlim

/-! ## Blocks and arrays -/

theorem reads_block (bs : ByteString) : Reads offsetLimit (decodeBlock bs.length) bs bs := by
  intro pre post hlim
  have hno : ¬ (pre ++ (bs ++ post)).length < pre.length + bs.length := by
    simp only [List.length_append]
    omega
  rw [decodeBlock, if_neg hno]
  exact reads_copyOut bs pre post hlim

theorem reads_allocated {α : Type} (hheap : heap.Ample) {size : ℕ} {elements : Decoder α}
    {bs : ByteString} {x : α} (hsize : Allocatable size bs.length)
    (h : Reads offsetLimit elements bs x) :
    Reads offsetLimit (decodeAllocated heap size elements) bs x := by
  intro pre post hlim
  have hmax : ¬ 104857600 < size := Nat.not_lt.2 hsize.1
  have hleft : ¬ (pre ++ (bs ++ post)).length < pre.length + size / 32 := by
    have hle := hsize.2
    simp only [List.length_append]
    omega
  have hgrant : heap size = true := hheap size (by omega)
  rw [decodeAllocated, if_neg hmax, if_neg hleft, if_pos hgrant]
  exact h pre post hlim

theorem reads_array {α : Type} (hheap : heap.Ample) {memSize n : ℕ} {empty x : α}
    {elements : ℕ → Decoder α} {bs : ByteString} (hsize : Allocatable (memSize * n) bs.length)
    (hempty : n = 0 → bs = [] ∧ x = empty) (h : Reads offsetLimit (elements n) bs x) :
    Reads offsetLimit (decodeArray heap memSize n empty elements) bs (some x) := by
  rw [decodeArray, if_neg (by omega)]
  by_cases hzero : n = 0
  · rcases hempty hzero with ⟨rfl, rfl⟩
    rw [if_pos (by omega)]
    exact Reads.yield (some x)
  · rw [if_neg (by omega), Int.toNat_natCast]
    exact (reads_allocated hheap hsize h).map some

theorem reads_nullArray {α : Type} (memSize : ℕ) (empty : α) (elements : ℕ → Decoder α) :
    Reads offsetLimit (decodeArray heap memSize (-1) empty elements) [] none := by
  rw [decodeArray, if_pos (by decide)]
  exact Reads.yield none

theorem reads_byteArray (hheap : heap.Ample) {s : Text} (hs : s.data.length ≤ 104857600) :
    Reads offsetLimit (decodeByteArray heap) s.bytes s := by
  rcases Text.length_bounds (by omega : s.data.length < 2 ^ 31) with ⟨hlo, hhi⟩
  have hdata : Reads offsetLimit (decodeArray heap 1 s.length [] decodeBlock) s.data s := by
    cases s with
    | none =>
        have hlen : Text.length none = -1 := rfl
        have hnil : Text.data none = [] := rfl
        rw [hlen, hnil]
        exact reads_nullArray 1 [] decodeBlock
    | some bs =>
        have hlen : Text.length (some bs) = (bs.length : ℤ) := rfl
        have hbytes : Text.data (some bs) = bs := rfl
        rw [hbytes] at hs
        have hall : Allocatable (1 * bs.length) bs.length := by
          constructor
          · omega
          · omega
        rw [hlen, hbytes]
        refine reads_array hheap hall ?_ (reads_block bs)
        intro hzero
        have hnil := List.length_eq_zero_iff.1 hzero
        exact ⟨hnil, hnil⟩
  exact (reads_int32 hlo hhi).andThen hdata

/-! ## Node ids -/

theorem reads_bytes {n : ℕ} (v : Vector UInt8 n) :
    Reads offsetLimit (decodeBytes n) v.toList v := by
  induction n with
  | zero =>
      have hnil : v = #v[] := by
        apply Vector.ext
        intro i hi
        exact absurd hi (Nat.not_lt_zero i)
      subst hnil
      exact Reads.yield _
  | succ n ih =>
      have hpush : v = v.pop.push v.back := (Vector.push_pop_back v).symm
      have hlist : v.toList = v.pop.toList ++ [v.back] := by
        rw [← Vector.toList_push, ← hpush]
      have h := ((ih v.pop).also (reads_byte v.back)).map fun r => r.1.push r.2
      rw [hlist]
      simp only [← hpush] at h
      exact h

theorem reads_guid (g : Guid) : Reads offsetLimit Guid.decodeBinary g.bytes g :=
  ((reads_uInt32 g.data1).also ((reads_uInt16 g.data2).also
    ((reads_uInt16 g.data3).also (reads_bytes g.data4)))).map _

/-- A number of two bytes comes back from them. -/
theorem toUInt32_of_le {value : UInt32} (hle : value.toNat ≤ 65535) :
    value.toUInt16.toUInt32 = value := by
  apply UInt32.toNat_inj.1
  simp
  omega

/-- What comes back from one byte. -/
theorem toUInt8_of_le {value : UInt32} (hle : value.toNat ≤ 256) :
    value.toUInt8.toUInt32 = if value = 256 then 0 else value := by
  by_cases hmax : value = 256
  · rw [if_pos hmax, hmax]
    rfl
  · have hne : value.toNat ≠ 256 := fun heq => hmax (UInt32.toNat_inj.1 heq)
    rw [if_neg hmax]
    apply UInt32.toNat_inj.1
    simp
    omega

theorem index_of_le {ns : UInt16} (hle : ns.toNat ≤ 256) :
    ns.toUInt8.toUInt16 = if ns = 256 then 0 else ns := by
  by_cases hmax : ns = 256
  · rw [if_pos hmax, hmax]
    rfl
  · have hne : ns.toNat ≠ 256 := fun heq => hmax (UInt16.toNat_inj.1 heq)
    rw [if_neg hmax]
    apply UInt16.toNat_inj.1
    simp
    omega

theorem reads_numericBody (heap : Heap) (ns : UInt16) (value : UInt32) :
    Reads offsetLimit
      (NodeId.decodeBody heap (NodeId.encodingByte { namespaceIndex := ns, identifier := .numeric value }))
      (NodeId.body { namespaceIndex := ns, identifier := .numeric value })
      (NodeId.normal { namespaceIndex := ns, identifier := .numeric value }) := by
  simp only [NodeId.encodingByte, NodeId.body, NodeId.normal]
  by_cases hlong : value > 65535 ∨ ns > 256
  · simp only [if_pos hlong]
    have hbody : NodeId.decodeBody heap 2 = (UInt16.decodeBinary.also UInt32.decodeBinary).map
        fun r => { namespaceIndex := r.1, identifier := .numeric r.2 } := by simp [NodeId.decodeBody]
    have hindex : ¬ (value ≤ 65535 ∧ ns = 256) := by
      rintro ⟨hle, rfl⟩
      rcases hlong with hgt | hgt
      · exact absurd hle (UInt32.not_le.2 hgt)
      · exact absurd hgt (by decide)
    have hnumber : ¬ (value = 256 ∧ ns = 0) := by
      rintro ⟨rfl, rfl⟩
      exact absurd hlong (by decide)
    rw [hbody, if_neg hindex, if_neg hnumber]
    exact ((reads_uInt16 ns).also (reads_uInt32 value)).map _
  · have hvalue : value.toNat ≤ 65535 := by
      by_contra hgt
      exact hlong (Or.inl (UInt32.lt_iff_toNat_lt.2 (Nat.not_le.1 hgt)))
    have hshort : value ≤ 65535 := UInt32.le_iff_toNat_le.2 hvalue
    have hns : ns.toNat ≤ 256 := by
      by_contra hgt
      exact hlong (Or.inr (UInt16.lt_iff_toNat_lt.2 (Nat.not_le.1 hgt)))
    by_cases hfour : value > 256 ∨ ns > 0
    · simp only [if_neg hlong, if_pos hfour, toBytes_one]
      have hbody : NodeId.decodeBody heap 1 = (Byte.decodeBinary.also UInt16.decodeBinary).map
          fun r => { namespaceIndex := r.1.toUInt16, identifier := .numeric r.2.toUInt32 } := by
        simp [NodeId.decodeBody]
      have hnumber : ¬ (value = 256 ∧ ns = 0) := by
        rintro ⟨rfl, rfl⟩
        exact absurd hfour (by decide)
      have h := ((reads_byte ns.toUInt8).also (reads_uInt16 value.toUInt16)).map fun r =>
        ({ namespaceIndex := r.1.toUInt16, identifier := .numeric r.2.toUInt32 } : NodeId)
      simp only [index_of_le hns, toUInt32_of_le hvalue] at h
      rw [hbody, if_neg hnumber]
      by_cases hmax : ns = 256
      · rw [if_pos ⟨hshort, hmax⟩]
        rwa [if_pos hmax] at h
      · rw [if_neg fun hboth => hmax hboth.2]
        rwa [if_neg hmax] at h
    · simp only [if_neg hlong, if_neg hfour, toBytes_one]
      have hbody : NodeId.decodeBody heap 0 = Byte.decodeBinary.map
          fun v => { namespaceIndex := 0, identifier := .numeric v.toUInt32 } := by
        simp [NodeId.decodeBody]
      have hle : value.toNat ≤ 256 :=
        UInt32.le_iff_toNat_le.1 (UInt32.not_lt.1 fun hgt => hfour (Or.inl hgt))
      have hns' : ns = 0 := by
        have hle : ns.toNat ≤ 0 :=
          UInt16.le_iff_toNat_le.1 (UInt16.not_lt.1 fun hgt => hfour (Or.inr hgt))
        apply UInt16.toNat_inj.1
        simpa using hle
      subst hns'
      have hindex : ¬ (value ≤ 65535 ∧ (0 : UInt16) = 256) := fun hboth =>
        absurd hboth.2 (by decide)
      have h := (reads_byte value.toUInt8).map fun v =>
        ({ namespaceIndex := 0, identifier := .numeric v.toUInt32 } : NodeId)
      simp only [toUInt8_of_le hle] at h
      rw [hbody, if_neg hindex]
      by_cases hmax : value = 256
      · rw [if_pos ⟨hmax, rfl⟩]
        rwa [if_pos hmax] at h
      · rw [if_neg fun hboth => hmax hboth.1]
        rwa [if_neg hmax] at h

theorem reads_nodeIdBody (hheap : heap.Ample) (id : NodeId) :
    Reads offsetLimit (NodeId.decodeBody heap id.encodingByte) id.body id.normal := by
  rcases id with ⟨ns, identifier⟩
  cases identifier with
  | numeric value => exact reads_numericBody heap ns value
  | string value =>
      have hbody : NodeId.decodeBody heap 3 = (UInt16.decodeBinary.also (Text.decodeBinary heap)).map
          fun r => { namespaceIndex := r.1, identifier := .string r.2 } := by simp [NodeId.decodeBody]
      simp only [NodeId.encodingByte, NodeId.body, hbody]
      exact ((reads_uInt16 ns).also (reads_text hheap value)).map _
  | guid value =>
      have hbody : NodeId.decodeBody heap 4 = (UInt16.decodeBinary.also Guid.decodeBinary).map
          fun r => { namespaceIndex := r.1, identifier := .guid r.2 } := by simp [NodeId.decodeBody]
      simp only [NodeId.encodingByte, NodeId.body, hbody]
      exact ((reads_uInt16 ns).also (reads_guid value)).map _
  | byteString value =>
      have hbody : NodeId.decodeBody heap 5 = (UInt16.decodeBinary.also (Text.decodeBinary heap)).map
          fun r => { namespaceIndex := r.1, identifier := .byteString r.2 } := by
        simp [NodeId.decodeBody]
      simp only [NodeId.encodingByte, NodeId.body, hbody]
      exact ((reads_uInt16 ns).also (reads_text hheap value)).map _

theorem reads_nodeId (hheap : heap.Ample) (id : NodeId) :
    Reads offsetLimit (NodeId.decodeBinary heap) id.bytes id.normal :=
  (reads_byte id.encodingByte).andThen (reads_nodeIdBody hheap id)

namespace ExpandedNodeId

/-- The form of a node id leaves the flags free. -/
theorem encodingByte_and_flags (id : ExpandedNodeId) :
    (id.nodeId.encodingByte ||| id.flags) &&& 0x3f = id.nodeId.encodingByte ∧
      decide ((id.nodeId.encodingByte ||| id.flags) &&& 0x80 ≠ 0) = id.namespaceUri.hasData ∧
        decide ((id.nodeId.encodingByte ||| id.flags) &&& 0x40 ≠ 0) =
          decide (id.serverIndex > 0) := by
  have hall : ∀ b ∈ [(0 : UInt8), 1, 2, 3, 4, 5], ∀ uri index : Bool,
      (b ||| ((if uri then 0x80 else 0) ||| if index then 0x40 else 0)) &&& 0x3f = b ∧
        decide ((b ||| ((if uri then 0x80 else 0) ||| if index then 0x40 else 0)) &&& 0x80 ≠ 0) =
            uri ∧
          decide ((b ||| ((if uri then 0x80 else 0) ||| if index then 0x40 else 0)) &&& 0x40 ≠ 0) =
            index := by
    decide +kernel
  have hform : id.nodeId.encodingByte ∈ [(0 : UInt8), 1, 2, 3, 4, 5] := by
    unfold NodeId.encodingByte
    split
    · split
      · decide
      · split
        · decide
        · decide
    · decide
    · decide
    · decide
  have h := hall _ hform id.namespaceUri.hasData (decide (id.serverIndex > 0))
  simp only [decide_eq_true_eq] at h
  exact h

theorem reads_rest (hheap : heap.Ample) (id : ExpandedNodeId) :
    Reads offsetLimit (decodeRest heap (id.nodeId.encodingByte ||| id.flags)) id.rest
      (if id.namespaceUri.hasData then some id.namespaceUri else none,
        if id.serverIndex > 0 then some id.serverIndex else none) := by
  rcases id.encodingByte_and_flags with ⟨_, huri, hindex⟩
  have h := ((reads_text hheap id.namespaceUri).when id.namespaceUri.hasData).also
    ((reads_uInt32 id.serverIndex).when (decide (id.serverIndex > 0)))
  simp only [decide_eq_true_eq] at h
  rw [decodeRest, huri, hindex]
  exact h

end ExpandedNodeId

theorem Text.getD_normal (s : Text) : (if s.hasData then some s else none).getD none = s.normal := by
  unfold Text.normal
  cases s.hasData with
  | true => rfl
  | false => rfl

theorem ExpandedNodeId.ofFields_eq (id : ExpandedNodeId) :
    ExpandedNodeId.ofFields (id.nodeId.normal,
      (if id.namespaceUri.hasData then some id.namespaceUri else none,
        if id.serverIndex > 0 then some id.serverIndex else none)) = id.normal := by
  have hindex : (if id.serverIndex > 0 then some id.serverIndex else none).getD 0 =
      id.serverIndex := by
    by_cases hpos : id.serverIndex > 0
    · rw [if_pos hpos]
      rfl
    · have hzero : id.serverIndex = 0 := by simpa using hpos
      rw [if_neg hpos, hzero]
      rfl
  unfold ExpandedNodeId.ofFields ExpandedNodeId.normal
  rw [Text.getD_normal, hindex]
  cases id.namespaceUri.hasData with
  | true => rfl
  | false => rfl

/-- Inside the buffer the flags are cleared and the fields are read. -/
theorem ExpandedNodeId.decodeBinary_eq {src : ByteString} {offset : ℕ} {b : UInt8}
    (hlim : src.length < 2 ^ 31) (hat : src[offset]? = some b) :
    ExpandedNodeId.decodeBinary heap src offset =
      ((NodeId.decodeBinary heap).also (ExpandedNodeId.decodeRest heap b)).map
        ExpandedNodeId.ofFields (src.set offset (b &&& 0x3f)) offset := by
  rcases List.getElem?_eq_some_iff.1 hat with ⟨hlt, _⟩
  have hin : ¬ (src.length : ℤ) ≤ int32 (offset : ℕ) := by
    rw [int32_natCast (by omega)]
    omega
  rw [ExpandedNodeId.decodeBinary, if_neg hin, hat]

theorem reads_expandedNodeId (hheap : heap.Ample) (id : ExpandedNodeId) :
    Reads offsetLimit (ExpandedNodeId.decodeBinary heap) id.bytes id.normal := by
  intro pre post hlim
  rcases id.encodingByte_and_flags with ⟨hform, _, _⟩
  have hfields := (((reads_nodeId hheap id.nodeId).also (id.reads_rest hheap)).map
    ExpandedNodeId.ofFields) pre post (by simpa [ExpandedNodeId.bytes, NodeId.bytes] using hlim)
  have hat : (pre ++ (id.bytes ++ post))[pre.length]? =
      some (id.nodeId.encodingByte ||| id.flags) := by
    simp [ExpandedNodeId.bytes]
  have hset : (pre ++ (id.bytes ++ post)).set pre.length id.nodeId.encodingByte =
      pre ++ ((id.nodeId.bytes ++ id.rest) ++ post) := by
    simp [ExpandedNodeId.bytes, NodeId.bytes]
  have hlen : (id.nodeId.bytes ++ id.rest).length = id.bytes.length := by
    simp [ExpandedNodeId.bytes, NodeId.bytes]
  rw [ExpandedNodeId.decodeBinary_eq (lt_offsetLimit hlim) hat, hform, hset, hfields, hlen,
    id.ofFields_eq]

/-! ## The other builtin types -/

theorem LocalizedText.mask_flags (l : LocalizedText) :
    decide (l.mask &&& 0x01 ≠ 0) = l.locale.hasData ∧
      decide (l.mask &&& 0x02 ≠ 0) = l.text.hasData := by
  unfold LocalizedText.mask
  cases l.locale.hasData <;> cases l.text.hasData <;> decide

theorem reads_localizedText (hheap : heap.Ample) (l : LocalizedText) :
    Reads offsetLimit (LocalizedText.decodeBinary heap) l.bytes l.normal := by
  rcases l.mask_flags with ⟨hlocale, htext⟩
  have h := (((reads_text hheap l.locale).when l.locale.hasData).also
    ((reads_text hheap l.text).when l.text.hasData)).map fun r =>
      ({ locale := r.1.getD none, text := r.2.getD none } : LocalizedText)
  simp only [Text.getD_normal] at h
  refine (reads_byte l.mask).andThen ?_
  rw [hlocale, htext]
  exact h

theorem reads_extensionBody (hheap : heap.Ample) (e : ExtensionObject) :
    Reads offsetLimit (ExtensionObject.decodeBody heap e.encoding)
      (match e.body with
        | .none => []
        | .byteString body => body.bytes
        | .xml body => body.bytes) e.body := by
  unfold ExtensionObject.encoding
  cases e.body with
  | none =>
      have hbody : ExtensionObject.decodeBody heap 0 = Reader.yield .none := by
        simp [ExtensionObject.decodeBody]
      simp only [hbody]
      exact Reads.yield _
  | byteString body =>
      have hbody : ExtensionObject.decodeBody heap 1 = (Text.decodeBinary heap).map .byteString := by
        simp [ExtensionObject.decodeBody]
      simp only [hbody]
      exact (reads_text hheap body).map _
  | xml body =>
      have hbody : ExtensionObject.decodeBody heap 2 = (Text.decodeBinary heap).map .xml := by
        simp [ExtensionObject.decodeBody]
      simp only [hbody]
      exact (reads_text hheap body).map _

theorem reads_extensionObject (hheap : heap.Ample) (e : ExtensionObject) :
    Reads offsetLimit (ExtensionObject.decodeBinary heap) e.bytes e.normal := by
  have hbody := (reads_extensionBody hheap e).map fun body =>
    ({ typeId := e.typeId.normal, body := body } : ExtensionObject)
  have h := ((reads_nodeId hheap e.typeId).also (reads_byte e.encoding)).andThen
    (f := fun r => (ExtensionObject.decodeBody heap r.2).map fun body =>
      ({ typeId := r.1, body := body } : ExtensionObject)) hbody
  rw [List.append_assoc] at h
  exact h

/-- A field is read when its flag is set. -/
theorem reads_option {α : Type} {decode : Decoder α} {bytes : α → ByteString}
    (h : ∀ x, Reads offsetLimit decode (bytes x) x) {flag : Bool} {x : Option α}
    (hflag : flag = x.isSome) : Reads offsetLimit (Reader.when flag decode) (optionBytes bytes x) x := by
  subst hflag
  cases x with
  | none => exact Reads.yield none
  | some x => exact (h x).map some

theorem Stamps.flags_spec (s : Stamps) (hasValue : Bool) :
    decide (s.flags hasValue &&& 0x01 ≠ 0) = hasValue ∧
      decide (s.flags hasValue &&& 0x02 ≠ 0) = s.status.isSome ∧
        decide (s.flags hasValue &&& 0x04 ≠ 0) = s.sourceTimestamp.isSome ∧
          decide (s.flags hasValue &&& 0x08 ≠ 0) = s.serverTimestamp.isSome ∧
            decide (s.flags hasValue &&& 0x10 ≠ 0) = s.sourcePicoseconds.isSome ∧
              decide (s.flags hasValue &&& 0x20 ≠ 0) = s.serverPicoseconds.isSome := by
  unfold Stamps.flags
  generalize s.status.isSome = a
  generalize s.sourceTimestamp.isSome = b
  generalize s.serverTimestamp.isSome = c
  generalize s.sourcePicoseconds.isSome = d
  generalize s.serverPicoseconds.isSome = e
  revert hasValue a b c d e
  decide

theorem reads_stamps (s : Stamps) (hasValue : Bool) :
    Reads offsetLimit (Stamps.decodeBinary (s.flags hasValue)) s.bytes s.normal := by
  rcases s.flags_spec hasValue with ⟨_, hstatus, hsource, hserver, hsourcePico, hserverPico⟩
  exact ((reads_option reads_uInt32 hstatus).also <| (reads_option reads_uInt64 hsource).also <|
    (reads_option reads_uInt16 hsourcePico).also <| (reads_option reads_uInt64 hserver).also
      (reads_option reads_uInt16 hserverPico)).map _

theorem Diagnostic.flags_spec (d : Diagnostic) (hasInner : Bool) :
    decide (d.flags hasInner &&& 0x01 ≠ 0) = d.symbolicId.isSome ∧
      decide (d.flags hasInner &&& 0x02 ≠ 0) = d.namespaceUri.isSome ∧
        decide (d.flags hasInner &&& 0x04 ≠ 0) = d.localizedText.isSome ∧
          decide (d.flags hasInner &&& 0x08 ≠ 0) = d.locale.isSome ∧
            decide (d.flags hasInner &&& 0x10 ≠ 0) = d.additionalInfo.isSome ∧
              decide (d.flags hasInner &&& 0x20 ≠ 0) = d.innerStatusCode.isSome ∧
                decide (d.flags hasInner &&& 0x40 ≠ 0) = hasInner := by
  unfold Diagnostic.flags
  generalize d.symbolicId.isSome = a
  generalize d.namespaceUri.isSome = b
  generalize d.localizedText.isSome = c
  generalize d.locale.isSome = e
  generalize d.additionalInfo.isSome = f
  generalize d.innerStatusCode.isSome = g
  revert hasInner a b c e f g
  decide +kernel

theorem reads_diagnosticFields (hheap : heap.Ample) (d : Diagnostic) (hasInner : Bool) :
    Reads offsetLimit (Diagnostic.decodeFields heap (d.flags hasInner)) d.fieldBytes d := by
  rcases d.flags_spec hasInner with ⟨hid, huri, htext, hlocale, hinfo, hstatus, _⟩
  exact ((reads_option reads_uInt32 hid).also <| (reads_option reads_uInt32 huri).also <|
    (reads_option reads_uInt32 htext).also <| (reads_option reads_uInt32 hlocale).also <|
      (reads_option (reads_text hheap) hinfo).also (reads_option reads_uInt32 hstatus)).map _

theorem reads_diagnosticInfo (hheap : heap.Ample) (d : Diagnostic) (inner : List Diagnostic)
    {depth : ℕ} (hdepth : inner.length < depth) :
    Reads offsetLimit (Diagnostic.decodeBinary heap depth) (d.bytes inner) (d, inner) := by
  induction inner generalizing d depth with
  | nil =>
      cases depth with
      | zero => omega
      | succ depth =>
          rcases d.flags_spec false with ⟨_, _, _, _, _, _, hinner⟩
          have h := ((reads_diagnosticFields hheap d false).also (Reads.skipped hinner
            (Diagnostic.decodeInner heap (Diagnostic.decodeBinary heap depth)))).map
              fun r => (r.1, r.2.elim [] fun inner => inner.1 :: inner.2)
          rw [List.append_nil] at h
          exact (reads_byte (d.flags false)).andThen h
  | cons d' rest ih =>
      cases depth with
      | zero => omega
      | succ depth =>
          rcases d.flags_spec true with ⟨_, _, _, _, _, _, hinner⟩
          have hrest : rest.length < depth := by
            rw [List.length_cons] at hdepth
            omega
          have hread : Reads offsetLimit
              (Diagnostic.decodeInner heap (Diagnostic.decodeBinary heap depth))
              (d'.bytes rest) (d', rest) := by
            intro pre post hlim
            have hgrant : heap 56 = true := hheap 56 (by decide)
            rw [Diagnostic.decodeInner, if_pos hgrant]
            exact (ih d' hrest).orRefuse _ pre post hlim
          have h := ((reads_diagnosticFields hheap d true).also (Reads.taken hinner hread)).map
            fun r => (r.1, r.2.elim [] fun inner => inner.1 :: inner.2)
          exact (reads_byte (d.flags true)).andThen h

theorem Diagnostic.length_inner (d : Diagnostic) (inner : List Diagnostic) :
    inner.length < (d.bytes inner).length := by
  induction inner generalizing d with
  | nil => simp [Diagnostic.bytes]
  | cons d' rest ih =>
      have h := ih d'
      simp only [Diagnostic.bytes, List.length_cons, List.length_append]
      omega

end Texts

end Encoding

end ForteOpcUa
