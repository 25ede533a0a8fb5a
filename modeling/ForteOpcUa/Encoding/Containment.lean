import ForteOpcUa.Encoding.EncodeSpecs

/-!
# Containment — decoders on buffers that hold anything

- `decode_contained` : no decoder reads outside a buffer below `2 ^ 30` bytes, whatever it holds,
  when the heap grants no block of `2 ^ 30` bytes,
- `decodeText_faults_iff` : with such blocks, a length that wraps the end of a text around passes
  the check of the decoder, and it reads outside.

Variants and diagnostic infos nest; each level reads a byte, so that the bytes left bound the depth.
-/

namespace ForteOpcUa

namespace Encoding

open Memory Serial

/-- No large block is granted. -/
def Heap.Modest (heap : Heap) : Prop :=
  ∀ size, heap size = true → size < 2 ^ 30

/-- The blocks for what is in a variant are granted; `UA_Variant_decodeBinary` does not look whether
they are. -/
structure Environment.Granting (env : Environment) : Prop where
  modest : env.heap.Modest
  object : env.heap 48 = true
  known : ∀ t ∈ env.types, env.heap t.memSize = true

/-- Below this limit offsets and blocks together do not wrap. -/
def bufferLimit : ℕ :=
  2 ^ 30

theorem lt_bufferLimit {n : ℕ} (h : n < bufferLimit) : n < 2 ^ 30 :=
  h

section Builtin

variable {heap : Heap} {room : ℕ}

/-! ## Integers and texts -/

theorem contained_copyOut {src : ByteString} {offset k : ℕ} (h : offset + k ≤ src.length) :
    (copyOut k src offset).Within offset src.length := by
  rw [copyOut, slice_eq_some h]
  exact .good (Nat.le_add_right _ _) h

theorem contained_integer {k : ℕ} (hk : k ≤ 8) : Contained bufferLimit room (decodeInteger k) := by
  intro src offset hlim hle _
  have hlim := lt_bufferLimit hlim
  have hend : int32 (offset + k : ℕ) = (offset + k : ℕ) := int32_natCast (by omega)
  unfold decodeInteger
  rw [hend]
  by_cases hshort : (src.length : ℤ) < (offset + k : ℕ)
  · rw [if_pos hshort]
    exact .bad (Nat.le_refl _) hle
  · rw [if_neg hshort, Reader.map]
    have hin : offset + k ≤ src.length := by omega
    rw [copyOut, slice_eq_some hin]
    exact .good (Nat.le_add_right _ _) hin

theorem contained_byte : Contained bufferLimit room Byte.decodeBinary :=
  (contained_integer (by decide)).map _

theorem contained_uInt16 : Contained bufferLimit room UInt16.decodeBinary :=
  (contained_integer (by decide)).map _

theorem contained_uInt32 : Contained bufferLimit room UInt32.decodeBinary :=
  (contained_integer (by decide)).map _

theorem contained_uInt64 : Contained bufferLimit room UInt64.decodeBinary :=
  (contained_integer (by decide)).map _

theorem contained_int32 : Contained bufferLimit room Int32.decodeBinary :=
  (contained_integer (by decide)).map _

theorem advances_integer {k : ℕ} (hk : 0 < k) : Advances (decodeInteger k) := by
  intro src offset x offset' h
  unfold decodeInteger at h
  by_cases hshort : (src.length : ℤ) < int32 (offset + k : ℕ)
  · rw [if_pos hshort] at h
    cases h
  · rw [if_neg hshort, Reader.map, copyOut] at h
    cases hslice : slice src offset k with
    | none =>
        rw [hslice] at h
        cases h
    | some bs =>
        rw [hslice] at h
        cases h
        exact Nat.lt_add_of_pos_right hk

theorem advances_byte : Advances Byte.decodeBinary :=
  (advances_integer (by decide)).map _

theorem contained_decodeData (hheap : heap.Modest) (length : ℤ) :
    Contained bufferLimit room (Text.decodeData heap length) := by
  unfold Text.decodeData
  split
  · exact Contained.yield _
  · split
    · exact Contained.yield _
    · intro src offset hlim hle _
      have hlim := lt_bufferLimit hlim
      have hoff : int32 (offset : ℕ) = offset := int32_natCast (by omega)
      dsimp only
      split
      · exact .bad (Nat.le_refl _) hle
      · split
        · rename_i hshort hgrant
          -- A block that is granted is too small for the end to wrap.
          have hblock := hheap _ hgrant
          have hend : int32 (int32 offset + length) = offset + length := by
            rw [hoff]
            exact int32_eq (by omega) (by omega)
          rw [hend] at hshort
          have hin : offset + length.toNat ≤ src.length := by omega
          rw [Reader.map, copyOut, slice_eq_some hin]
          exact .good (Nat.le_add_right _ _) hin
        · exact .bad (Nat.le_refl _) hle

theorem contained_text (hheap : heap.Modest) :
    Contained bufferLimit room (Text.decodeBinary heap) :=
  (contained_int32.orRefuse _).andThen (contained_decodeData hheap)

/-! ## Blocks and arrays -/

theorem contained_block (k : ℕ) : Contained bufferLimit room (decodeBlock k) := by
  intro src offset _ hle _
  unfold decodeBlock
  split
  · exact .bad (Nat.le_refl _) hle
  · exact contained_copyOut (by omega)

theorem contained_allocated {α : Type} {size : ℕ} {elements : Decoder α}
    (h : Contained bufferLimit room elements) :
    Contained bufferLimit room (decodeAllocated heap size elements) := by
  intro src offset hlim hle hroom
  unfold decodeAllocated
  split
  · exact .bad (Nat.le_refl _) hle
  · split
    · exact .bad (Nat.le_refl _) hle
    · split
      · exact h src offset hlim hle hroom
      · exact .bad (Nat.le_refl _) hle

theorem contained_array {α : Type} {memSize : ℕ} {n : ℤ} {empty : α} {elements : ℕ → Decoder α}
    (h : ∀ n, Contained bufferLimit room (elements n)) :
    Contained bufferLimit room (decodeArray heap memSize n empty elements) := by
  unfold decodeArray
  split
  · exact Contained.yield _
  · split
    · exact Contained.yield _
    · exact (contained_allocated (h _)).map _

theorem contained_byteArray : Contained bufferLimit room (decodeByteArray heap) :=
  contained_int32.andThen fun _ => contained_array contained_block

theorem contained_dimensions : Contained bufferLimit room (decodeDimensions heap) :=
  contained_int32.andThen fun _ => (contained_array fun _ => (contained_block _).map _).map _

/-! ## Node ids -/

theorem contained_bytes : (n : ℕ) → Contained bufferLimit room (decodeBytes n)
  | 0 => Contained.yield _
  | n + 1 => ((contained_bytes n).also contained_byte).map _

theorem contained_guid : Contained bufferLimit room Guid.decodeBinary :=
  (contained_uInt32.also (contained_uInt16.also (contained_uInt16.also (contained_bytes 8)))).map _

theorem contained_nodeIdBody (hheap : heap.Modest) (encodingByte : UInt8) :
    Contained bufferLimit room (NodeId.decodeBody heap encodingByte) := by
  unfold NodeId.decodeBody
  split
  · exact contained_byte.map _
  · split
    · exact (contained_byte.also contained_uInt16).map _
    · split
      · exact (contained_uInt16.also contained_uInt32).map _
      · split
        · exact (contained_uInt16.also (contained_text hheap)).map _
        · split
          · exact (contained_uInt16.also contained_guid).map _
          · split
            · exact (contained_uInt16.also (contained_text hheap)).map _
            · exact Contained.refuse _

theorem contained_nodeId (hheap : heap.Modest) :
    Contained bufferLimit room (NodeId.decodeBinary heap) :=
  contained_byte.andThen (contained_nodeIdBody hheap)

theorem contained_expandedNodeId (hheap : heap.Modest) :
    Contained bufferLimit room (ExpandedNodeId.decodeBinary heap) := by
  intro src offset hlim hle hroom
  have hoff : int32 (offset : ℕ) = offset := by
    have hlim := lt_bufferLimit hlim
    exact int32_natCast (by omega)
  unfold ExpandedNodeId.decodeBinary
  rw [hoff]
  split
  · exact .bad (Nat.le_refl _) hle
  · rename_i hin
    have hlt : offset < src.length := by omega
    rw [List.getElem?_eq_getElem hlt]
    -- Clearing the flags leaves the length of the buffer.
    have hlen : (src.set offset (src[offset] &&& 0x3f)).length = src.length := List.length_set
    have hrest : Contained bufferLimit room (ExpandedNodeId.decodeRest heap src[offset]) :=
      ((contained_text hheap).when _).also (contained_uInt32.when _)
    have h := (((contained_nodeId hheap).also hrest).map ExpandedNodeId.ofFields)
      (src.set offset (src[offset] &&& 0x3f)) offset (by rwa [hlen]) (by omega) (by rwa [hlen])
    rwa [hlen] at h

/-! ## The other builtin types -/

theorem contained_localizedText (hheap : heap.Modest) :
    Contained bufferLimit room (LocalizedText.decodeBinary heap) :=
  contained_byte.andThen fun _ =>
    (((contained_text hheap).when _).also ((contained_text hheap).when _)).map _

theorem contained_extensionObject (hheap : heap.Modest) :
    Contained bufferLimit room (ExtensionObject.decodeBinary heap) := by
  have hbody : ∀ encoding, Contained bufferLimit room (ExtensionObject.decodeBody heap encoding) := by
    intro encoding
    unfold ExtensionObject.decodeBody
    split
    · exact Contained.yield _
    · split
      · exact (contained_text hheap).map _
      · split
        · exact (contained_text hheap).map _
        · exact Contained.refuse _
  exact ((contained_nodeId hheap).also contained_byte).andThen fun r => (hbody r.2).map _

theorem contained_stamps (flags : UInt8) :
    Contained bufferLimit room (Stamps.decodeBinary flags) :=
  ((contained_uInt32.when _).also ((contained_uInt64.when _).also ((contained_uInt16.when _).also
    ((contained_uInt64.when _).also (contained_uInt16.when _))))).map _

theorem contained_diagnosticFields (hheap : heap.Modest) (flags : UInt8) :
    Contained bufferLimit room (Diagnostic.decodeFields heap flags) :=
  ((contained_uInt32.when _).also ((contained_uInt32.when _).also ((contained_uInt32.when _).also
    ((contained_uInt32.when _).also (((contained_text hheap).when _).also
      (contained_uInt32.when _)))))).map _

theorem contained_inner {inner : Decoder (Diagnostic × List Diagnostic)}
    (h : Contained bufferLimit room inner) :
    Contained bufferLimit room (Diagnostic.decodeInner heap inner) := by
  intro src offset hlim hle hroom
  unfold Diagnostic.decodeInner
  split
  · exact h.orRefuse _ src offset hlim hle hroom
  · exact .bad (Nat.le_refl _) hle

/-- The bytes left are deep enough. -/
theorem contained_diagnostic (hheap : heap.Modest) : (depth : ℕ) →
    Contained bufferLimit depth (Diagnostic.decodeBinary heap depth)
  | 0 => fun _ _ _ _ hroom => absurd hroom (Nat.not_lt_zero _)
  | depth + 1 => contained_byte.andThen_deeper advances_byte fun _ =>
      ((contained_diagnosticFields hheap _).also
        ((contained_inner (contained_diagnostic hheap depth)).when _)).map _

end Builtin

section Values

variable {env : Environment} {room : ℕ}

/-! ## Values of any type -/

theorem contained_loop {t : DataType} {element : Decoder (Value t)}
    (h : Contained bufferLimit room element) : (n : ℕ) →
      Contained bufferLimit room (decodeLoop element n)
  | 0 => Contained.yield _
  | n + 1 => h.andThen fun _ => (contained_loop h n).map _

theorem contained_elements {t : DataType} {element : Decoder (Value t)}
    (h : Contained bufferLimit room element) (n : ℕ) :
    Contained bufferLimit room (decodeElements t element n) := by
  cases t with
  | fixed f => exact (contained_block (f.size * n)).map (fixedValues f n)
  | _ => exact contained_loop h n

theorem contained_element {t : DataType} {element : Decoder (Value t)}
    (h : Contained bufferLimit room element) :
    Contained bufferLimit room (decodeElement t element) := by
  cases t with
  | fixed f => exact (contained_block f.size).map _
  | _ => exact h

mutual

theorem contained_type (hheap : env.heap.Modest) {variant : Decoder (Value .variant)}
    (hvariant : Contained bufferLimit room variant) :
    (t : DataType) → Contained bufferLimit room (decodeType env variant t)
  | .fixed f => by
      have hsize : f.size ≤ 8 := by cases f <;> decide
      rw [decodeType]
      exact (contained_integer hsize).map _
  | .text _ => by
      rw [decodeType]
      exact contained_byteArray.map _
  | .guid => by
      rw [decodeType]
      exact contained_guid.map _
  | .nodeId => by
      rw [decodeType]
      exact (contained_nodeId hheap).map _
  | .expandedNodeId => by
      rw [decodeType]
      exact (contained_expandedNodeId hheap).map _
  | .qualifiedName => by
      rw [decodeType]
      exact contained_uInt16.andThen fun _ => contained_byteArray.map _
  | .localizedText => by
      rw [decodeType]
      exact (contained_localizedText hheap).map _
  | .extensionObject => by
      rw [decodeType]
      exact (contained_extensionObject hheap).map _
  | .dataValue => by
      rw [decodeType]
      exact contained_byte.andThen fun _ =>
        ((hvariant.when _).also (contained_stamps _)).map _
  | .variant => by
      rw [decodeType]
      exact hvariant
  | .diagnosticInfo => by
      rw [decodeType]
      intro src offset hlim hle _
      exact ((contained_diagnostic hheap (src.length + 1)).map _) src offset hlim hle (by omega)
  | .record _ _ members => by
      rw [decodeType]
      exact (contained_members hheap hvariant members).map _

theorem contained_members (hheap : env.heap.Modest) {variant : Decoder (Value .variant)}
    (hvariant : Contained bufferLimit room variant) :
    (ms : Members) → Contained bufferLimit room (decodeMembers env variant ms)
  | .nil => by
      rw [decodeMembers]
      exact Contained.yield _
  | .single t ms => by
      rw [decodeMembers]
      exact (contained_type hheap hvariant t).andThen fun _ =>
        (contained_members hheap hvariant ms).map _
  | .array t ms => by
      rw [decodeMembers]
      exact contained_int32.andThen fun _ =>
        (contained_array (contained_elements (contained_type hheap hvariant t))).andThen fun _ =>
          (contained_members hheap hvariant ms).map _

end

/-! ## Variants -/

theorem lookup_mem {types : List DataType} {id : NodeId} {encoding : UInt8} {t : DataType}
    (h : bodyType types id encoding = some t) : t ∈ types := by
  unfold bodyType at h
  split at h
  · exact List.mem_of_find?_eq_some h
  · cases h

theorem contained_extension (henv : env.Granting) {variant : Decoder (Value .variant)}
    (hvariant : Contained bufferLimit room variant) :
    Contained bufferLimit room (decodeExtension env variant) := by
  intro src offset hlim hle hroom
  have hleft : ∀ offset', offset ≤ offset' → src.length - offset' < room := fun offset' hmono =>
    Nat.lt_of_le_of_lt (Nat.sub_le_sub_left hmono _) hroom
  unfold decodeExtension
  refine (contained_nodeId henv.modest src offset hlim hle hroom).andThen ?_
  intro typeId offset' _ hmono hin
  have hform : (Byte.decodeBinary src offset').Within offset src.length :=
    (contained_byte src offset' hlim hin (hleft _ hmono)).mono hmono
  refine hform.andThen ?_
  intro encoding offset'' _ hmono' hin'
  cases hbody : bodyType env.types typeId encoding with
  | some t =>
      dsimp only
      rw [if_pos (henv.known t (lookup_mem hbody))]
      exact (((contained_type henv.modest hvariant t).map Value.scalar) src offset'' hlim hin'
        (hleft _ hmono')).mono hmono'
  | none =>
      -- The object is read again from its beginning.
      dsimp only
      rw [if_pos henv.object]
      exact ((contained_extensionObject henv.modest).map _) src offset hlim hle hroom

theorem contained_variantBody (henv : env.Granting) {variant : Decoder (Value .variant)}
    (hvariant : Contained bufferLimit room variant) (encodingByte : UInt8) :
    Contained bufferLimit room (decodeVariantBody env variant encodingByte) := by
  unfold decodeVariantBody
  split
  · exact Contained.refuse _
  · rename_i t _
    have htype := contained_type henv.modest hvariant t
    split
    · exact Contained.refuse _
    · split
      · exact contained_int32.andThen fun _ =>
          (contained_array (contained_elements htype)).andThen fun _ =>
            (contained_dimensions.when _).map _
      · split
        · exact contained_extension henv hvariant
        · exact (contained_allocated (contained_element htype)).map _

/-- The bytes left are deep enough for the variants. -/
theorem contained_variant (henv : env.Granting) : (depth : ℕ) →
    Contained bufferLimit depth (decodeVariant env depth)
  | 0 => fun _ _ _ _ hroom => absurd hroom (Nat.not_lt_zero _)
  | depth + 1 => contained_byte.andThen_deeper advances_byte
      (contained_variantBody henv (contained_variant henv depth))

end Values

/-- **Containment.**  On a buffer that holds anything, the decoder of a type yields a value or refuses,
and has not read outside the buffer. -/
theorem decode_contained (env : Environment) (henv : env.Granting) (t : DataType)
    (src : ByteString) (offset : ℕ) (hlim : src.length < 2 ^ 30) (hle : offset ≤ src.length) :
    (decodeBinary env t src offset).Within offset src.length := by
  have hvariant := contained_variant henv (src.length + 1)
  exact contained_type henv.modest hvariant t src offset hlim hle (by omega)

theorem decode_contained_small :
    (decodeBinary { types := [], heap := fun size => decide (size < 100) } .variant [0x15, 7] 0).Within
      0 [(0x15 : UInt8), 7].length := by
  refine decode_contained _ ⟨?_, by decide, ?_⟩ .variant [0x15, 7] 0 (by decide) (by decide)
  · intro size h
    have hlt : size < 100 := of_decide_eq_true h
    omega
  · intro t ht
    cases ht

/-! ## Lengths that wrap -/

/-- An integer is read where its bytes are, and refused where they are not. -/
theorem decodeInteger_eq {k : ℕ} {src : ByteString} {offset : ℕ} (hle : offset ≤ src.length)
    (hlim : src.length + k < 2 ^ 31) :
    decodeInteger k src offset = match slice src offset k with
      | none => .bad StatusCode.badDecodingError offset
      | some bs => .good (ofBytes bs) (offset + k) := by
  have hend : int32 (offset + k : ℕ) = (offset + k : ℕ) := int32_natCast (by omega)
  unfold decodeInteger
  rw [hend]
  by_cases hshort : (src.length : ℤ) < (offset + k : ℕ)
  · have hnone : slice src offset k = none := if_neg (by omega)
    rw [if_pos hshort, hnone]
  · have hsome := slice_eq_some (by omega : offset + k ≤ src.length)
    rw [if_neg hshort, Reader.map, copyOut, hsome]

/-- The data of a text are read outside when their end wraps. -/
theorem decodeData_faults_iff {heap : Heap} {length : ℤ} {src : ByteString} {offset : ℕ}
    (hle : offset ≤ src.length) (hlim : src.length < 2 ^ 31) (hlength : length < 2 ^ 31) :
    Text.decodeData heap length src offset = .fault ↔
      0 < length ∧ heap length.toNat = true ∧ 2 ^ 31 ≤ offset + length := by
  have hoff : int32 (offset : ℕ) = offset := int32_natCast (by omega)
  unfold Text.decodeData
  split
  · constructor
    · intro h
      cases h
    · rintro ⟨hpos, _⟩
      omega
  · split
    · constructor
      · intro h
        cases h
      · rintro ⟨hpos, _⟩
        omega
    · rename_i hnonneg hne
      dsimp only
      rw [hoff]
      have hgrant : (if heap length.toNat = true then (copyOut length.toNat).map some src offset
          else .bad StatusCode.badOutOfMemory offset) = .fault ↔
            heap length.toNat = true ∧ src.length < offset + length.toNat := by
        by_cases hheap : heap length.toNat = true
        · rw [if_pos hheap, Reader.map, copyOut]
          by_cases hin : offset + length.toNat ≤ src.length
          · rw [slice_eq_some hin]
            simp [hheap, hin]
          · have hnone : slice src offset length.toNat = none := if_neg hin
            rw [hnone]
            simp [hheap, Nat.not_le.1 hin]
        · rw [if_neg hheap]
          simp [hheap]
      by_cases hwrap : 2 ^ 31 ≤ offset + length
      · -- The end has become negative, so that it is not behind the buffer.
        rw [int32_wrap hwrap (by omega), if_neg (by omega), hgrant]
        constructor
        · rintro ⟨hheap, _⟩
          exact ⟨by omega, hheap, hwrap⟩
        · rintro ⟨_, hheap, _⟩
          exact ⟨hheap, by omega⟩
      · rw [int32_eq (by omega) (by omega)]
        by_cases hshort : (src.length : ℤ) < offset + length
        · rw [if_pos hshort]
          constructor
          · intro h
            cases h
          · rintro ⟨_, _, h⟩
            exact absurd h hwrap
        · rw [if_neg hshort, hgrant]
          constructor
          · rintro ⟨_, hout⟩
            omega
          · rintro ⟨_, _, h⟩
            exact absurd h hwrap

theorem int32_lt (x : ℤ) : int32 x < 2 ^ 31 := by
  have h := Int.bmod_lt (x := x) (m := 2 ^ 32) (by decide)
  unfold int32
  norm_num at h ⊢
  exact h

/-- **A read outside the buffer.**  A text is read outside just when its length is positive, the heap
grants so large a block, and the end of the text wraps around. -/
theorem decodeText_faults_iff (heap : Heap) (src : ByteString) (offset : ℕ)
    (hle : offset ≤ src.length) (hlim : src.length + 4 < 2 ^ 31) :
    Text.decodeBinary heap src offset = .fault ↔
      ∃ bs, slice src offset 4 = some bs ∧ 0 < int32 (ofBytes bs) ∧
        heap (int32 (ofBytes bs)).toNat = true ∧ 2 ^ 31 ≤ offset + 4 + int32 (ofBytes bs) := by
  have hcount := decodeInteger_eq hle hlim
  unfold Text.decodeBinary Int32.decodeBinary
  cases hslice : slice src offset 4 with
  | none =>
      rw [hslice] at hcount
      rw [Reader.andThen_bad (Reader.orRefuse_bad (Reader.map_bad hcount))]
      simp
  | some bs =>
      rw [hslice] at hcount
      have hin := (length_slice hslice).2
      rw [Reader.andThen_good (Reader.orRefuse_good (Reader.map_good hcount)),
        decodeData_faults_iff hin (by omega) (int32_lt _)]
      simp

theorem decodeText_faults_largest :
    Text.decodeBinary (fun _ => true) [0xff, 0xff, 0xff, 0x7f] 0 = .fault ↔
      ∃ bs, slice [0xff, 0xff, 0xff, 0x7f] 0 4 = some bs ∧ 0 < int32 (ofBytes bs) ∧
        (fun _ => true) (int32 (ofBytes bs)).toNat = true ∧
          2 ^ 31 ≤ ((0 : ℕ) : ℤ) + 4 + int32 (ofBytes bs) :=
  decodeText_faults_iff (fun _ => true) [0xff, 0xff, 0xff, 0x7f] 0 (by decide) (by decide)

end Encoding

end ForteOpcUa
