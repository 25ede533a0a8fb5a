import ForteOpcUa.Encoding.Containment
import ForteOpcUa.Encoding.DecodeSpecs
import ForteOpcUa.Network.Connection
import ForteOpcUa.Serial.Framing

/-!
# Reassembly — the receiver cuts the stream into messages

`messages` is the framer of the protocol: it looks at the first 16 bytes.  `completeMessages` cuts
what the connection kept and what arrived into its messages (`completeMessages_cases`), so that

- `reassembly` : a stream of messages is handed over message by message, wherever the chunks end,
- `jobs_whole` : whatever arrives, a job holds whole messages and the connection keeps at most the
  last bytes, which are too few for a header or for the message that their header announces.
-/

namespace ForteOpcUa

namespace Network

open Memory Serial Encoding

/-! ## The framer -/

/-- The length in the header. -/
def announced (bs : ByteString) : ℤ :=
  int32 (ofBytes ((bs.drop 4).take 4) : ℕ)

/-- What the first 16 bytes say. -/
def verdict (conf : ConnectionConfig) (bs : ByteString) : Verdict :=
  if bs.length < 16 then .wait
  else if !isMessageType (messageType bs) then .garbage
  else if announced bs < 16 ∨ int32 conf.maxMessageSize.toNat < announced bs then .garbage
  else if (bs.length : ℤ) < announced bs then .wait
  else .frame (announced bs).toNat

/-- More bytes do not change the header. -/
theorem header_append (bs : ByteString) (h : 16 ≤ bs.length) (cs : ByteString) :
    messageType (bs ++ cs) = messageType bs ∧ announced (bs ++ cs) = announced bs := by
  constructor
  · rw [messageType, messageType, List.take_append_of_le_length (by omega)]
  · rw [announced, announced, List.drop_append_of_le_length (by omega),
      List.take_append_of_le_length (by rw [List.length_drop]; omega)]

theorem header_take {bs : ByteString} {n : ℕ} (h : 16 ≤ n) (hn : n ≤ bs.length) :
    messageType (bs.take n) = messageType bs ∧ announced (bs.take n) = announced bs := by
  have hlen : (bs.take n).length = n := List.length_take_of_le hn
  have hall := header_append (bs.take n) (by omega) (bs.drop n)
  rw [List.take_append_drop] at hall
  exact ⟨hall.1.symm, hall.2.symm⟩

/-- A message: its type is known, and its length is right and allowed. -/
theorem verdict_eq_frame_iff {conf : ConnectionConfig} {bs : ByteString} {n : ℕ} :
    verdict conf bs = .frame n ↔ 16 ≤ n ∧ n ≤ bs.length ∧ isMessageType (messageType bs) = true ∧
      announced bs = n ∧ (n : ℤ) ≤ int32 conf.maxMessageSize.toNat := by
  unfold verdict
  constructor
  · intro h
    split at h
    · cases h
    · split at h
      · cases h
      · split at h
        · cases h
        · split at h
          · cases h
          · rename_i htype hlength hwhole
            have hn := Verdict.frame.inj h
            refine ⟨by omega, by omega, by simpa using htype, by omega, by omega⟩
  · rintro ⟨hlow, hle, htype, hlength, hmax⟩
    rw [if_neg (by omega), htype, if_neg (by simp), if_neg (by omega), if_neg (by omega), hlength,
      Int.toNat_natCast]

theorem verdict_eq_garbage_iff {conf : ConnectionConfig} {bs : ByteString} :
    verdict conf bs = .garbage ↔ 16 ≤ bs.length ∧ (isMessageType (messageType bs) = false ∨
      announced bs < 16 ∨ int32 conf.maxMessageSize.toNat < announced bs) := by
  unfold verdict
  by_cases hshort : bs.length < 16
  · rw [if_pos hshort]
    simp
    omega
  · rw [if_neg hshort]
    cases htype : isMessageType (messageType bs) with
    | false =>
        rw [if_pos (by rfl)]
        simp
        omega
    | true =>
        rw [if_neg (by simp)]
        by_cases hlength : announced bs < 16 ∨ int32 conf.maxMessageSize.toNat < announced bs
        · rw [if_pos hlength]
          simp [hlength]
          omega
        · rw [if_neg hlength]
          constructor
          · intro h
            split at h
            · cases h
            · cases h
          · rintro ⟨_, h | h⟩
            · cases h
            · exact absurd h hlength

/-- What may be kept: fewer bytes than a header has, whatever they are, or a header that is right
and fewer bytes than it announces. -/
def Unfinished (conf : ConnectionConfig) (bs : ByteString) : Prop :=
  bs.length < 16 ∨
    (isMessageType (messageType bs) = true ∧ 16 ≤ announced bs ∧
      announced bs ≤ int32 conf.maxMessageSize.toNat ∧ (bs.length : ℤ) < announced bs)

theorem verdict_eq_wait_iff {conf : ConnectionConfig} {bs : ByteString} :
    verdict conf bs = .wait ↔ Unfinished conf bs := by
  unfold verdict Unfinished
  by_cases hshort : bs.length < 16
  · simp [hshort]
  · cases htype : isMessageType (messageType bs) with
    | false => simp [hshort]
    | true =>
        by_cases hlength : announced bs < 16 ∨ int32 conf.maxMessageSize.toNat < announced bs
        · rw [if_neg hshort, if_neg (by simp), if_pos hlength]
          simp only [reduceCtorEq, false_iff]
          rintro (h | ⟨_, hlow, hmax, _⟩)
          · exact hshort h
          · omega
        · rw [if_neg hshort, if_neg (by simp), if_neg hlength]
          by_cases hwhole : (bs.length : ℤ) < announced bs
          · rw [if_pos hwhole]
            exact iff_of_true rfl (Or.inr ⟨rfl, by omega, by omega, hwhole⟩)
          · simp [hshort, hwhole]

/-- What waits is short. -/
theorem length_of_wait {conf : ConnectionConfig} {bs : ByteString} (h : verdict conf bs = .wait) :
    bs.length < 16 ∨ (bs.length : ℤ) < int32 conf.maxMessageSize.toNat := by
  unfold verdict at h
  split at h
  · left
    assumption
  · split at h
    · cases h
    · split at h
      · cases h
      · split at h
        · right
          omega
        · cases h

/-- The framer of the protocol. -/
def messages (conf : ConnectionConfig) : Framer UInt8 where
  verdict := verdict conf
  frame_le := by
    intro bs n h
    rcases verdict_eq_frame_iff.1 h with ⟨hlow, hle, _⟩
    omega
  frame_take := by
    intro bs n h
    rcases verdict_eq_frame_iff.1 h with ⟨hlow, hle, htype, hlength, hmax⟩
    rcases header_take hlow hle with ⟨htype', hlength'⟩
    have hlen : (bs.take n).length = n := List.length_take_of_le hle
    exact verdict_eq_frame_iff.2 ⟨hlow, by omega, by rw [htype', htype], by rw [hlength', hlength],
      hmax⟩
  frame_stable := by
    intro bs n cs h
    rcases verdict_eq_frame_iff.1 h with ⟨hlow, hle, htype, hlength, hmax⟩
    rcases header_append bs (by omega) cs with ⟨htype', hlength'⟩
    refine verdict_eq_frame_iff.2 ⟨hlow, ?_, by rw [htype', htype], by rw [hlength', hlength], hmax⟩
    rw [List.length_append]
    omega
  garbage_stable := by
    intro bs cs h
    rcases verdict_eq_garbage_iff.1 h with ⟨hlow, hwhy⟩
    rcases header_append bs hlow cs with ⟨htype', hlength'⟩
    refine verdict_eq_garbage_iff.2 ⟨?_, by rwa [htype', hlength']⟩
    rw [List.length_append]
    omega

theorem verdict_nil (conf : ConnectionConfig) : (messages conf).verdict [] = .wait := rfl

theorem isFrame_iff {conf : ConnectionConfig} {bs : ByteString} :
    (messages conf).IsFrame bs ↔ verdict conf bs = .frame bs.length :=
  Iff.rfl

/-! ## The loop -/

/-- The length is where the header has it. -/
theorem decode_length {current : ByteString} {pos : ℕ} (hlong : 16 ≤ current.length - pos)
    (hlim : current.length + 4 < 2 ^ 31) :
    Int32.decodeBinary current (pos + 4) = .good (announced (current.drop pos)) (pos + 4 + 4) := by
  have hslice : slice current (pos + 4) 4 = some (((current.drop pos).drop 4).take 4) := by
    rw [slice_eq_some (by omega), List.drop_drop]
  have hread := decodeInteger_eq (by omega : pos + 4 ≤ current.length) hlim
  rw [hslice] at hread
  exact Reader.map_good hread

/-- The buffers that the receiver handles without overflow. -/
def Fits (conf : ConnectionConfig) (n : ℕ) : Prop :=
  n + max 16 (int32 conf.maxMessageSize.toNat).toNat + 4 < 2 ^ 31

/-- A round of the loop follows the verdict. -/
theorem checkMessage_eq {conf : ConnectionConfig} {current : ByteString}
    (hfits : Fits conf current.length) {pos : ℕ} (hpos : pos ≤ current.length) :
    checkMessage conf current pos = verdict conf (current.drop pos) := by
  unfold Fits at hfits
  have hlen : (current.drop pos).length = current.length - pos := List.length_drop
  unfold checkMessage verdict
  rw [hlen]
  by_cases hshort : current.length - pos < 16
  · rw [if_pos hshort, if_pos hshort]
  · have hread := decode_length (by omega : 16 ≤ current.length - pos)
      (by omega : current.length + 4 < 2 ^ 31)
    rw [if_neg hshort, if_neg hshort, hread]
    dsimp only
    by_cases hlength : announced (current.drop pos) < 16 ∨
        int32 conf.maxMessageSize.toNat < announced (current.drop pos)
    · rw [if_pos hlength, if_pos hlength]
    · -- The length is in bounds, so that the end of the message does not wrap.
      have hstart : int32 (pos : ℕ) = pos := int32_natCast (by omega)
      have hend : int32 (announced (current.drop pos) + pos) =
          announced (current.drop pos) + pos := int32_eq (by omega) (by omega)
      have hiff : (current.length : ℤ) < announced (current.drop pos) + pos ↔
          ((current.length - pos : ℕ) : ℤ) < announced (current.drop pos) := by omega
      rw [if_neg hlength, if_neg hlength, hstart, hend]
      simp only [hiff]

/-- The loop goes over the messages and stops where garbage begins or more is needed. -/
theorem scan_eq {conf : ConnectionConfig} {current : ByteString}
    (hfits : Fits conf current.length) (rounds : ℕ) {pos : ℕ} (hpos : pos ≤ current.length)
    (hrounds : current.length - pos ≤ rounds) {fs : List ByteString} {rest : Option ByteString}
    (hcut : Cuts (messages conf) (current.drop pos) fs rest) :
    scan conf rounds current pos =
      (if rest = none then current.take (pos + fs.flatten.length) else current,
        pos + fs.flatten.length) := by
  induction rounds generalizing pos fs with
  | zero =>
      have hnil : current.drop pos = [] := List.drop_eq_nil_of_le (by omega)
      rw [hnil] at hcut
      rcases hcut.unique (.wait (verdict_nil conf)) with ⟨rfl, rfl⟩
      simp [scan]
  | succ rounds ih =>
      have hlen : (current.drop pos).length = current.length - pos := List.length_drop
      rw [scan, checkMessage_eq hfits hpos]
      generalize hbs : current.drop pos = bs at hcut hlen ⊢
      cases hcut with
      | wait hv =>
          have hv : verdict conf bs = .wait := hv
          rw [hv]
          simp
      | garbage hv =>
          have hv : verdict conf bs = .garbage := hv
          rw [hv]
          simp
      | @frame f bs fs rest hv hcut =>
          have hv : verdict conf (f ++ bs) = .frame f.length := hv
          rcases verdict_eq_frame_iff.1 hv with ⟨hlow, hle, _⟩
          have hnext : current.drop (pos + f.length) = bs := by
            rw [← List.drop_drop, hbs, List.drop_left]
          rw [hv]
          dsimp only
          rw [ih (by omega) (by omega) (by rwa [hnext]), List.flatten_cons, List.length_append,
            Nat.add_assoc]

/-! ## The receiver -/

/-- The job for the messages that were cut out. -/
def jobOf (relocated : Bool) (fs : List ByteString) : Job :=
  if fs = [] then .nothing
  else if relocated then .allocated fs.flatten
  else .networkLayer fs.flatten

theorem message_jobOf (relocated : Bool) (fs : List ByteString) :
    (jobOf relocated fs).message = fs.flatten := by
  unfold jobOf
  by_cases hnil : fs = []
  · rw [if_pos hnil, hnil]
    rfl
  · rw [if_neg hnil]
    cases relocated with
    | true => rfl
    | false => rfl

/-- Messages are not empty. -/
theorem flatten_eq_nil {conf : ConnectionConfig} {bs : ByteString} {fs : List ByteString}
    {rest : Option ByteString} (hcut : Cuts (messages conf) bs fs rest) :
    fs.flatten = [] ↔ fs = [] := by
  constructor
  · intro hnil
    cases hcut with
    | wait => rfl
    | garbage => rfl
    | @frame f bs fs rest hv _ =>
        have hpos := ((messages conf).frame_le hv).1
        rw [List.flatten_cons, List.append_eq_nil_iff] at hnil
        rw [hnil.1] at hpos
        exact absurd hpos (Nat.lt_irrefl 0)
  · rintro rfl
    rfl

/-- What is kept behind the loop: what waits, unless there is no memory for it. -/
theorem finish_eq (heap : Heap) {c : Connection} (hc : c.incompleteMessage = []) (relocated : Bool)
    {current : ByteString} {fs : List ByteString} {rest : Option ByteString}
    (hcut : Cuts (messages c.localConf) current fs rest) :
    ∃ kept, finish heap c relocated
        (if rest = none then current.take fs.flatten.length else current) fs.flatten.length =
          ({ c with incompleteMessage := kept }, jobOf relocated fs) ∧
      (kept = rest.getD [] ∨ kept = [] ∧ ∃ n, n ≤ current.length ∧ heap n = false) := by
  have hsame : ({ c with incompleteMessage := [] } : Connection) = c := by
    rw [← hc]
  have hprefix := hcut.prefix_flatten
  rcases hprefix with ⟨r, hr⟩
  have hlen : fs.flatten.length + r.length = current.length := by
    rw [← hr, List.length_append]
  unfold finish
  cases rest with
  | none =>
      rw [if_pos rfl, List.length_take_of_le (by omega)]
      by_cases hzero : fs.flatten.length = 0
      · have hnil : fs = [] := (flatten_eq_nil hcut).1 (List.length_eq_zero_iff.1 hzero)
        refine ⟨[], ?_, Or.inl rfl⟩
        rw [if_pos hzero, hsame, jobOf, if_pos hnil]
      · have hne : fs ≠ [] := fun hnil => hzero (by rw [hnil]; rfl)
        refine ⟨[], ?_, Or.inl rfl⟩
        have htake : (current.take fs.flatten.length).take fs.flatten.length = fs.flatten := by
          rw [List.take_take, Nat.min_self, ← hr, List.take_left]
        rw [if_neg hzero, if_neg hzero, if_neg (by simp), hc, htake, jobOf, if_neg hne]
  | some s =>
      have hs : r = s := by
        have hflat := hcut.flatten
        rw [← hr] at hflat
        exact (List.append_cancel_left hflat).symm
      subst hs
      simp only [reduceCtorEq, if_false]
      by_cases hempty : current.length = 0
      · have hnil : current = [] := List.length_eq_zero_iff.1 hempty
        have hfs : fs = [] := (flatten_eq_nil hcut).1 (List.length_eq_zero_iff.1 (by omega))
        have hr' : r = [] := List.length_eq_zero_iff.1 (by omega)
        refine ⟨[], ?_, Or.inl (by rw [hr']; rfl)⟩
        rw [if_pos hempty, hsame, jobOf, if_pos hfs]
      · rw [if_neg hempty]
        by_cases hzero : fs.flatten.length = 0
        · have hfs : fs = [] := (flatten_eq_nil hcut).1 (List.length_eq_zero_iff.1 hzero)
          have hcurrent : current = r := by rw [← hr, hfs]; rfl
          rw [if_pos hzero, jobOf, if_pos hfs, hcurrent]
          cases relocated with
          | true => exact ⟨r, rfl, Or.inl rfl⟩
          | false =>
              cases hheap : heap r.length with
              | true => exact ⟨r, by simp, Or.inl rfl⟩
              | false =>
                  exact ⟨[], by simp, Or.inr ⟨rfl, r.length, Nat.le_refl _, hheap⟩⟩
        · have hne : fs ≠ [] := fun hnil => hzero (by rw [hnil]; rfl)
          have htake : current.take fs.flatten.length = fs.flatten := by
            rw [← hr, List.take_left]
          have hdrop : current.drop fs.flatten.length = r := by
            rw [← hr, List.drop_left]
          rw [if_neg hzero, htake, hdrop, hc, jobOf, if_neg hne]
          by_cases htail : current.length ≠ fs.flatten.length ∧
              heap (current.length - fs.flatten.length) = true
          · rw [if_pos htail]
            exact ⟨r, by cases relocated <;> rfl, Or.inl rfl⟩
          · rw [if_neg htail]
            refine ⟨[], by cases relocated <;> rfl, ?_⟩
            by_cases hr' : r = []
            · exact Or.inl (by rw [hr']; rfl)
            · have hpos := List.length_pos_iff.2 hr'
              refine Or.inr ⟨rfl, current.length - fs.flatten.length, by omega, ?_⟩
              by_contra hheap
              exact htail ⟨by omega, by simpa using hheap⟩

/-- What was kept and what arrived is cut into its messages; only a lack of memory loses some. -/
theorem completeMessages_cases (heap : Heap) {c : Connection} {bs : ByteString}
    (hfits : Fits c.localConf (c.incompleteMessage ++ bs).length) {fs : List ByteString}
    {rest : Option ByteString}
    (hcut : Cuts (messages c.localConf) (c.incompleteMessage ++ bs) fs rest) :
    ∃ kept job, completeMessages heap c (some bs) = ({ c with incompleteMessage := kept }, job) ∧
      (job = jobOf (c.incompleteMessage ≠ []) fs ∧ kept = rest.getD [] ∨
        kept = [] ∧ (job = jobOf (c.incompleteMessage ≠ []) fs ∨ job = .nothing) ∧
          ∃ n, n ≤ (c.incompleteMessage ++ bs).length ∧ heap n = false) := by
  unfold completeMessages
  dsimp only
  by_cases hkept : c.incompleteMessage = []
  · rw [hkept, List.nil_append] at hcut hfits
    have hscan := scan_eq hfits bs.length (Nat.zero_le _) (Nat.sub_le _ _) hcut
    rw [Nat.zero_add] at hscan
    rcases finish_eq heap hkept false hcut with ⟨kept, hfinish, hwhy⟩
    rw [if_pos hkept, hscan]
    refine ⟨kept, _, hfinish, ?_⟩
    rw [hkept, List.nil_append]
    rcases hwhy with h | ⟨hnil, hdenied⟩
    · exact Or.inl ⟨by simp, h⟩
    · exact Or.inr ⟨hnil, Or.inl (by simp), hdenied⟩
  · rw [if_neg hkept]
    by_cases hheap : heap (c.incompleteMessage.length + bs.length) = true
    · have hscan := scan_eq hfits (c.incompleteMessage ++ bs).length (Nat.zero_le _)
        (Nat.sub_le _ _) hcut
      rw [Nat.zero_add] at hscan
      rcases finish_eq heap (c := { c with incompleteMessage := [] }) rfl true hcut with
        ⟨kept, hfinish, hwhy⟩
      rw [if_pos hheap, hscan]
      refine ⟨kept, _, hfinish, ?_⟩
      rcases hwhy with h | ⟨hnil, hdenied⟩
      · exact Or.inl ⟨by simp [hkept], h⟩
      · exact Or.inr ⟨hnil, Or.inl (by simp [hkept]), hdenied⟩
    · rw [if_neg hheap]
      refine ⟨[], .nothing, rfl, Or.inr ⟨rfl, Or.inr rfl, _, ?_, by simpa using hheap⟩⟩
      rw [List.length_append]

/-- A chunk that is handled without overflow, whatever is kept. -/
def Manageable (conf : ConnectionConfig) (bs : ByteString) : Prop :=
  Fits conf (max 16 (int32 conf.maxMessageSize.toNat).toNat + bs.length)

theorem fits_append {conf : ConnectionConfig} {kept bs : ByteString}
    (hkept : verdict conf kept = .wait) (hbs : Manageable conf bs) :
    Fits conf (kept ++ bs).length := by
  have hshort := length_of_wait hkept
  unfold Manageable Fits at *
  rw [List.length_append]
  omega

/-! ## Streams -/

/-- The bytes of a call, if any arrived. -/
def chunk (call : Heap × Option ByteString) : ByteString :=
  call.2.getD []

/-- With memory, the receiver cuts chunks as the framer does. -/
theorem receives {c : Connection} (hc : verdict c.localConf c.incompleteMessage = .wait)
    {calls : List (Heap × Option ByteString)}
    (hcalls : ∀ call ∈ calls, Heap.Ample call.1 ∧ Manageable c.localConf (chunk call)) :
    ∃ fss q, Receives (messages c.localConf) c.incompleteMessage (calls.map chunk) fss q ∧
      (receiveAll c calls).2.map Job.message = fss.map List.flatten ∧
        (receiveAll c calls).1.incompleteMessage = q := by
  induction calls generalizing c with
  | nil => exact ⟨[], _, .nil, rfl, rfl⟩
  | cons call calls ih =>
      rcases hcalls call List.mem_cons_self with ⟨hheap, hsize⟩
      have hrest := fun call' hcall' => hcalls call' (List.mem_cons_of_mem call hcall')
      rcases Cuts.total (messages c.localConf) (c.incompleteMessage ++ chunk call) with
        ⟨fs, rest, hcut⟩
      have hfits := fits_append hc hsize
      -- The call leaves what waits and hands over what was cut out.
      have hcall : (completeMessages call.1 c call.2).1 =
            { c with incompleteMessage := rest.getD [] } ∧
          (completeMessages call.1 c call.2).2.message = fs.flatten := by
        rcases call with ⟨heap, received⟩
        cases received with
        | none =>
            have hnone : c.incompleteMessage ++ chunk (heap, none) = c.incompleteMessage :=
              List.append_nil _
            rw [hnone] at hcut
            rcases hcut.unique (.wait hc) with ⟨rfl, rfl⟩
            exact ⟨rfl, rfl⟩
        | some bs =>
            have hbs : chunk (heap, some bs) = bs := rfl
            rw [hbs] at hcut hfits
            rcases completeMessages_cases heap hfits hcut with ⟨kept, job, heq, hwhy⟩
            rcases hwhy with ⟨hjob, hkept⟩ | ⟨_, _, n, hn, hdenied⟩
            · rw [heq, hjob, hkept, message_jobOf]
              exact ⟨rfl, rfl⟩
            · have hgrant : heap n = true := by
                unfold Fits at hfits
                exact hheap n (by omega)
              rw [hgrant] at hdenied
              cases hdenied
      have hwait : verdict c.localConf (rest.getD []) = .wait := by
        cases rest with
        | none => exact verdict_nil c.localConf
        | some r => exact hcut.verdict_rest
      rcases ih (c := { c with incompleteMessage := rest.getD [] }) hwait hrest with
        ⟨fss, q, hreceives, hjobs, hq⟩
      refine ⟨fs :: fss, q, .cons hcut hreceives, ?_, ?_⟩
      · rw [receiveAll, List.map_cons, List.map_cons, hcall.1, hcall.2, hjobs]
      · rw [receiveAll, hcall.1, hq]

/-- One call hands over whole messages and keeps what waits. -/
theorem completeMessages_whole {c : Connection}
    (hc : verdict c.localConf c.incompleteMessage = .wait) {call : Heap × Option ByteString}
    (hsize : Manageable c.localConf (chunk call)) :
    ∃ kept, ∃ fs : List ByteString,
      (completeMessages call.1 c call.2).1 = { c with incompleteMessage := kept } ∧
        (completeMessages call.1 c call.2).2.message = fs.flatten ∧
          (∀ f ∈ fs, (messages c.localConf).IsFrame f) ∧
            (fs.flatten ++ kept).Sublist (c.incompleteMessage ++ chunk call) ∧
              kept <:+ c.incompleteMessage ++ chunk call ∧ verdict c.localConf kept = .wait := by
  rcases call with ⟨heap, received⟩
  cases received with
  | none =>
      have hsame : c.incompleteMessage ++ chunk (heap, none) = c.incompleteMessage :=
        List.append_nil _
      rw [hsame]
      exact ⟨c.incompleteMessage, [], rfl, rfl, by simp, List.Sublist.refl _, List.suffix_rfl, hc⟩
  | some bs =>
      have hfits : Fits c.localConf (c.incompleteMessage ++ bs).length := fits_append hc hsize
      rcases Cuts.total (messages c.localConf) (c.incompleteMessage ++ bs) with ⟨fs, rest, hcut⟩
      rcases completeMessages_cases heap hfits hcut with ⟨kept, job, heq, hwhy⟩
      rcases hcut.prefix_flatten with ⟨r, hr⟩
      have hwait : verdict c.localConf (rest.getD []) = .wait := by
        cases rest with
        | none => exact verdict_nil c.localConf
        | some r => exact hcut.verdict_rest
      have hwhole : (fs.flatten ++ rest.getD []).Sublist (c.incompleteMessage ++ bs) := by
        cases rest with
        | none =>
            rw [← hr]
            exact (List.Sublist.refl _).append (List.nil_sublist _)
        | some r =>
            rw [← hcut.flatten]
            exact List.Sublist.refl _
      have hmessages : fs.flatten.Sublist (c.incompleteMessage ++ bs) := by
        rw [← hr]
        exact List.sublist_append_left _ _
      have hend : rest.getD [] <:+ c.incompleteMessage ++ bs := by
        cases rest with
        | none => exact List.nil_suffix
        | some r =>
            rw [← hcut.flatten]
            exact List.suffix_append _ _
      rcases hwhy with ⟨hjob, hkept⟩ | ⟨hkept, hjob | hjob, _⟩
      · rw [hkept] at heq
        exact ⟨_, fs, by rw [heq], by rw [heq, hjob, message_jobOf], hcut.isFrame, hwhole, hend,
          hwait⟩
      · rw [hkept] at heq
        refine ⟨[], fs, by rw [heq], by rw [heq, hjob, message_jobOf], hcut.isFrame, ?_,
          List.nil_suffix, verdict_nil c.localConf⟩
        rw [List.append_nil]
        exact hmessages
      · rw [hkept] at heq
        exact ⟨[], [], by rw [heq], by rw [heq, hjob]; rfl, by simp, List.nil_sublist _,
          List.nil_suffix, verdict_nil c.localConf⟩

/-- **Reassembly.**  A stream of messages that arrives in chunks of any lengths is handed over message
by message in its order: each job holds the next few whole messages, and the beginning of the message
that is not complete yet is kept. -/
theorem reassembly (c : Connection) (hc : c.incompleteMessage = []) (ms : List ByteString)
    (hms : ∀ m ∈ ms, (messages c.localConf).IsFrame m) (tail : ByteString)
    (htail : verdict c.localConf tail = .wait) (calls : List (Heap × Option ByteString))
    (hcalls : ∀ call ∈ calls, Heap.Ample call.1 ∧ Manageable c.localConf (chunk call))
    (hstream : (calls.map chunk).flatten = ms.flatten ++ tail) :
    ∃ groups : List (List ByteString), groups.flatten = ms ∧
      (receiveAll c calls).2.map Job.message = groups.map List.flatten ∧
        (receiveAll c calls).1.incompleteMessage = tail := by
  have hwait : verdict c.localConf c.incompleteMessage = .wait := by
    rw [hc]
    exact verdict_nil c.localConf
  rcases receives hwait hcalls with ⟨fss, q, hreceives, hjobs, hq⟩
  have hcut := Cuts.of_frames (F := messages c.localConf) hms htail
  rw [← hstream, ← List.nil_append (calls.map chunk).flatten, ← hc] at hcut
  rcases hreceives.exact hwait hcut with ⟨hfss, htail'⟩
  exact ⟨fss, hfss, hjobs, hq.trans htail'⟩

/-- **Safety of the receiver.**  Whatever arrives in manageable chunks, and whatever memory is denied,
every job holds whole messages, and the bytes of the jobs and those kept come from the stream in its
order and at most once.  Those kept are the last ones: too few for a header, or for the message that
their header announces. -/
theorem jobs_whole (c : Connection) (hc : Unfinished c.localConf c.incompleteMessage)
    (calls : List (Heap × Option ByteString))
    (hcalls : ∀ call ∈ calls, Manageable c.localConf (chunk call)) :
    (∀ job ∈ (receiveAll c calls).2, ∃ fs : List ByteString, job.message = fs.flatten ∧
        ∀ f ∈ fs, (messages c.localConf).IsFrame f) ∧
      (((receiveAll c calls).2.map Job.message).flatten ++
        (receiveAll c calls).1.incompleteMessage).Sublist
          (c.incompleteMessage ++ (calls.map chunk).flatten) ∧
        (receiveAll c calls).1.incompleteMessage <:+
          c.incompleteMessage ++ (calls.map chunk).flatten ∧
          Unfinished c.localConf (receiveAll c calls).1.incompleteMessage := by
  induction calls generalizing c with
  | nil =>
      simp [receiveAll, hc]
  | cons call calls ih =>
      have hsize := hcalls call List.mem_cons_self
      have hrest := fun call' hcall' => hcalls call' (List.mem_cons_of_mem call hcall')
      have hcall : ∃ kept, ∃ fs : List ByteString, (completeMessages call.1 c call.2).1 =
            { c with incompleteMessage := kept } ∧
          (completeMessages call.1 c call.2).2.message = fs.flatten ∧
            (∀ f ∈ fs, (messages c.localConf).IsFrame f) ∧
              (fs.flatten ++ kept).Sublist (c.incompleteMessage ++ chunk call) ∧
                kept <:+ c.incompleteMessage ++ chunk call ∧
                  verdict c.localConf kept = .wait :=
        completeMessages_whole (verdict_eq_wait_iff.2 hc) hsize
      rcases hcall with ⟨kept, fs, hstate, hjob, hframes, hsub, hend, hwait⟩
      rcases ih { c with incompleteMessage := kept } (verdict_eq_wait_iff.1 hwait) hrest with
        ⟨hjobs, hsub', hend', hwait'⟩
      rw [receiveAll, hstate]
      refine ⟨?_, ?_, ?_, hwait'⟩
      · intro job hmem
        rcases List.mem_cons.1 hmem with rfl | hmem
        · exact ⟨fs, hjob, hframes⟩
        · exact hjobs job hmem
      · rw [List.map_cons, List.flatten_cons, hjob, List.map_cons, List.flatten_cons,
          List.append_assoc, ← List.append_assoc c.incompleteMessage]
        have hlater := hsub'.append_left fs.flatten
        have hfirst := hsub.append_right (calls.map chunk).flatten
        rw [List.append_assoc fs.flatten] at hfirst
        exact hlater.trans hfirst
      · rw [List.map_cons, List.flatten_cons, ← List.append_assoc c.incompleteMessage]
        rcases hend with ⟨before, hbefore⟩
        rw [← hbefore, List.append_assoc]
        exact List.suffix_append_of_suffix hend'

/-! ## A message in two chunks -/

/-- A message without a body. -/
def emptyRequest : ByteString :=
  [0x4d, 0x53, 0x47, 0x46, 16, 0, 0, 0, 0, 0, 0, 0, 0, 0, 0, 0]

/-- A connection that kept nothing, and messages of at most 64 KiB. -/
def freshConnection : Connection :=
  ⟨⟨65536⟩, []⟩

/-- The bytes arrive one byte short, with the last one in front of the next message. -/
def splitCalls : List (Heap × Option ByteString) :=
  [(fun _ => true, some (emptyRequest.take 15)), (fun _ => true, none),
    (fun _ => true, some (emptyRequest.drop 15 ++ emptyRequest.take 3))]

theorem isFrame_emptyRequest : (messages freshConnection.localConf).IsFrame emptyRequest := by
  rw [isFrame_iff]
  decide +kernel

theorem reassembly_split : ∃ groups : List (List ByteString), groups.flatten = [emptyRequest] ∧
    (receiveAll freshConnection splitCalls).2.map Job.message = groups.map List.flatten ∧
      (receiveAll freshConnection splitCalls).1.incompleteMessage = emptyRequest.take 3 :=
  reassembly freshConnection rfl [emptyRequest]
    (by simpa using isFrame_emptyRequest) (emptyRequest.take 3) (by decide +kernel) splitCalls
    (by
      intro call hcall
      simp only [splitCalls, List.mem_cons, List.not_mem_nil, or_false] at hcall
      rcases hcall with rfl | rfl | rfl
      · exact ⟨fun _ _ => rfl, by unfold Manageable Fits; decide⟩
      · exact ⟨fun _ _ => rfl, by unfold Manageable Fits; decide⟩
      · exact ⟨fun _ _ => rfl, by unfold Manageable Fits; decide⟩) (by decide +kernel)

/-- The same bytes without memory. -/
def deniedCalls : List (Heap × Option ByteString) :=
  splitCalls.map fun call => (fun _ => false, call.2)

theorem jobs_whole_denied :
    (∀ job ∈ (receiveAll freshConnection deniedCalls).2, ∃ fs : List ByteString,
        job.message = fs.flatten ∧ ∀ f ∈ fs, (messages freshConnection.localConf).IsFrame f) ∧
      (((receiveAll freshConnection deniedCalls).2.map Job.message).flatten ++
        (receiveAll freshConnection deniedCalls).1.incompleteMessage).Sublist
          (freshConnection.incompleteMessage ++ (deniedCalls.map chunk).flatten) ∧
        (receiveAll freshConnection deniedCalls).1.incompleteMessage <:+
          freshConnection.incompleteMessage ++ (deniedCalls.map chunk).flatten ∧
          Unfinished freshConnection.localConf
            (receiveAll freshConnection deniedCalls).1.incompleteMessage :=
  jobs_whole freshConnection (Or.inl (by decide)) deniedCalls (by
    intro call hcall
    simp only [deniedCalls, splitCalls, List.map_cons, List.map_nil, List.mem_cons,
      List.not_mem_nil, or_false] at hcall
    rcases hcall with rfl | rfl | rfl
    · unfold Manageable Fits; decide
    · unfold Manageable Fits; decide
    · unfold Manageable Fits; decide)

end Network

end ForteOpcUa
