import ForteOpcUa.Blocks.Formatting

/-!
# SearchLoops — which references the browse search takes for the wanted one

`OPC_UA_PUBLISH` looks for a node by formatting the identifier of each target as if it were a
string and comparing texts.  It sees neither the namespace nor the tag, and `%.*s` stops at a zero
byte.

- `searchLoop_run_iff` : the writes of a loop and the flag it ends with,
- `Impostor`           : the targets that show a wanted text without being the wanted node,
- `search_exact_iff`   : the flags are right exactly when every identifier can be read and a reply
  with an impostor also targets the wanted node.
-/

namespace ForteOpcUa

open Interaction
open Interaction.Prog

namespace OpcUaPublish

/-! ## What a loop does -/

/-- The targets whose identifiers are formatted: all up to the first that cannot be read. -/
def visited (P : Platform) : List RawNodeId → List RawNodeId
  | [] => []
  | nodeId :: rest => nodeId :: (if P.printed nodeId = none then [] else visited P rest)

/-- Every identifier can be formatted. -/
def Readable (P : Platform) (targets : List RawNodeId) : Prop :=
  ∀ nodeId ∈ targets, P.printed nodeId ≠ none

instance (P : Platform) (targets : List RawNodeId) : Decidable (Readable P targets) :=
  inferInstanceAs (Decidable (∀ nodeId ∈ targets, P.printed nodeId ≠ none))

/-- Some target shows the wanted text. -/
def Shows (P : Platform) (wanted : ByteString) (targets : List RawNodeId) : Prop :=
  ∃ nodeId ∈ targets, P.printed nodeId = some wanted

instance (P : Platform) (wanted : ByteString) (targets : List RawNodeId) :
    Decidable (Shows P wanted targets) :=
  inferInstanceAs (Decidable (∃ nodeId ∈ targets, P.printed nodeId = some wanted))

section Loop

variable {P : Platform} {wanted : ByteString} {nodeId : RawNodeId} {targets : List RawNodeId}
variable {found : Bool} {tr : List (Event Formatted)} {flag : Option Bool}

theorem readable_cons :
    Readable P (nodeId :: targets) ↔ P.printed nodeId ≠ none ∧ Readable P targets :=
  List.forall_mem_cons

theorem shows_cons :
    Shows P wanted (nodeId :: targets) ↔
      P.printed nodeId = some wanted ∨ Shows P wanted targets := by
  simp [Shows]

theorem visited_of_readable (h : Readable P targets) : visited P targets = targets := by
  induction targets with
  | nil =>
      rfl
  | cons nodeId targets ih =>
      rcases readable_cons.1 h with ⟨hhead, hrest⟩
      simp [visited, hhead, ih hrest]

/-- The flag a loop ends with, started from `found`. -/
def loopResult (P : Platform) (wanted : ByteString) (targets : List RawNodeId) (found : Bool) :
    Option Bool :=
  if Readable P targets then some (found || decide (Shows P wanted targets)) else none

/-- A target that cannot be read ends the loop. -/
theorem loopResult_cons_none (h : P.printed nodeId = none) :
    loopResult P wanted (nodeId :: targets) found = none := by
  simp [loopResult, readable_cons, h]

/-- A target that can be read sets the flag if it shows the wanted text, and never clears it. -/
theorem loopResult_cons_some {text : ByteString} (h : P.printed nodeId = some text) :
    loopResult P wanted (nodeId :: targets) found =
      loopResult P wanted targets (if text = wanted then true else found) := by
  by_cases htext : text = wanted
  · simp [loopResult, readable_cons, shows_cons, h, htext]
  · simp [loopResult, readable_cons, shows_cons, h, htext]

/-- The runs of a loop: the visited targets are formatted in order, and the flag is set when some
target shows the wanted text. -/
theorem searchLoop_run_iff :
    Run (searchLoop P wanted targets found).run tr flag ↔
      tr = (visited P targets).map (fun nodeId => written (.nodeIdString nodeId)) ∧
        flag = loopResult P wanted targets found := by
  -- Induction on the targets, for every value the flag can have on the way.
  induction targets generalizing found tr with
  | nil =>
      simp [searchLoop, visited, loopResult, Readable, Shows]
  | cons nodeId targets ih =>
      rw [searchLoop, OptionT.run_bind, run_sprintf, elimM_call, run_written_iff]
      cases htext : P.printed nodeId with
      | none =>
          simp [visited, Sprintf.text, htext, loopResult_cons_none htext]
      | some text =>
          simp [visited, Sprintf.text, htext, loopResult_cons_some htext, ih]

end Loop

/-! ## Impostors -/

/-- The targets that show the wanted text without being the string id of namespace 1. -/
inductive Impostor (P : Platform) (wanted : ByteString) : RawNodeId → Prop
  | elsewhere (ns : UInt16) : ns ≠ 1 → Impostor P wanted ⟨ns, .string (some wanted)⟩
  | longer (ns : UInt16) (rest : ByteString) :
      Impostor P wanted ⟨ns, .string (some (wanted ++ 0 :: rest))⟩
  | nullString (ns : UInt16) :
      P.printedNull (-1) = some wanted → Impostor P wanted ⟨ns, .string none⟩
  | numeric (ns : UInt16) (value : UInt32) :
      P.printedNull value.toInt32 = some wanted → Impostor P wanted ⟨ns, .numeric value⟩
  | guid (ns : UInt16) (value : Vector UInt8 16) :
      (P.guid value).map (Memory.upTo 0) = some wanted → Impostor P wanted ⟨ns, .guid value⟩
  | byteString (ns : UInt16) (value : RawString) :
      P.printedString value = some wanted → Impostor P wanted ⟨ns, .byteString value⟩

/-- The wanted node is among the targets, or none of them is an impostor. -/
def Unmistakable (P : Platform) (wanted : ByteString) (targets : List RawNodeId) : Prop :=
  RawNodeId.string 1 wanted ∈ targets ∨ ∀ nodeId ∈ targets, ¬ Impostor P wanted nodeId

/-- The text of a variable's id, as a name: it is nonempty and has no zero byte. -/
def varBrowseName (fb_id var_id : Name) : Name where
  text := varBrowseId fb_id var_id
  nonempty := by simp [varBrowseId]
  zeroFree := by
    have hdot : (0 : UInt8) ≠ Name.dot := by decide
    simp [varBrowseId, hdot, fb_id.zeroFree, var_id.zeroFree]

section Exact

variable {P : Platform} {wanted : Name} {nodeId : RawNodeId} {targets : List RawNodeId}

/-- A string shows the wanted text if it is that text, or goes on with a zero byte. -/
theorem printedString_eq_iff (P : Platform) {value : ByteString} :
    P.printedString (some value) = some wanted.text ↔
      value = wanted.text ∨ ∃ rest, value = wanted.text ++ 0 :: rest := by
  rw [Platform.printedString, Option.some.injEq]
  exact Memory.upTo_eq_iff wanted.zeroFree

/-- The targets that show the wanted text are the wanted node and its impostors. -/
theorem printed_eq_iff :
    P.printed nodeId = some wanted.text ↔
      nodeId = RawNodeId.string 1 wanted.text ∨ Impostor P wanted.text nodeId := by
  constructor
  · intro h
    rcases nodeId with ⟨ns, identifier⟩
    cases identifier with
    | numeric value => exact Or.inr (.numeric ns value h)
    | guid value => exact Or.inr (.guid ns value h)
    | byteString value => exact Or.inr (.byteString ns value h)
    | string value =>
        cases value with
        | none => exact Or.inr (.nullString ns h)
        | some value =>
            -- Only here can the target be the wanted node itself.
            rcases (printedString_eq_iff P).1 h with rfl | ⟨rest, rfl⟩
            · by_cases hns : ns = 1
              · exact Or.inl (by rw [hns, RawNodeId.string])
              · exact Or.inr (.elsewhere ns hns)
            · exact Or.inr (.longer ns rest)
  · rintro (rfl | himpostor)
    · exact (printedString_eq_iff P).2 (Or.inl rfl)
    · cases himpostor with
      | elsewhere ns hns => exact (printedString_eq_iff P).2 (Or.inl rfl)
      | longer ns rest => exact (printedString_eq_iff P).2 (Or.inr ⟨rest, rfl⟩)
      | nullString ns h => exact h
      | numeric ns value h => exact h
      | guid ns value h => exact h
      | byteString ns value h => exact h

theorem shows_iff :
    Shows P wanted.text targets ↔
      RawNodeId.string 1 wanted.text ∈ targets ∨
        ∃ nodeId ∈ targets, Impostor P wanted.text nodeId := by
  simp only [Shows, printed_eq_iff, and_or_left, exists_or, exists_eq_right]

/-- A reply is unmistakable when the wanted text is shown only together with the wanted node. -/
theorem unmistakable_iff :
    Unmistakable P wanted.text targets ↔
      (Shows P wanted.text targets → RawNodeId.string 1 wanted.text ∈ targets) := by
  rw [shows_iff, Unmistakable]
  constructor
  · rintro (hmem | hnone) hshown
    · exact hmem
    · rcases hshown with hmem | ⟨nodeId, hin, himpostor⟩
      · exact hmem
      · exact absurd himpostor (hnone nodeId hin)
  · intro h
    by_cases hmem : RawNodeId.string 1 wanted.text ∈ targets
    · exact Or.inl hmem
    · exact Or.inr fun nodeId hin himpostor => hmem (h (Or.inr ⟨nodeId, hin, himpostor⟩))

/-- A loop reports exactly whether the wanted node is among the targets when it can read them all
and is not misled. -/
theorem loopResult_exact_iff :
    loopResult P wanted.text targets false =
        some (decide (RawNodeId.string 1 wanted.text ∈ targets)) ↔
      Readable P targets ∧ Unmistakable P wanted.text targets := by
  by_cases hread : Readable P targets
  · have hflag : (Shows P wanted.text targets ↔ RawNodeId.string 1 wanted.text ∈ targets) ↔
        Unmistakable P wanted.text targets := by
      rw [unmistakable_iff]
      exact ⟨Iff.mp, fun h => ⟨h, fun hmem => shows_iff.2 (Or.inl hmem)⟩⟩
    simp [loopResult, hread, hflag]
  · simp [loopResult, hread]

end Exact

/-! ## Exact searches -/

/-- Some reference targets the node of namespace 1 whose string identifier is `wanted`. -/
def Targets (bResp : RawBrowseResponse) (wanted : ByteString) : Prop :=
  ∃ nodeId ∈ bResp.targets,
    nodeId.namespaceIndex = 1 ∧ nodeId.identifier = .string (some wanted)

theorem targets_iff {bResp : RawBrowseResponse} {wanted : ByteString} :
    Targets bResp wanted ↔ RawNodeId.string 1 wanted ∈ bResp.targets := by
  constructor
  · rintro ⟨⟨ns, identifier⟩, hmem, rfl, rfl⟩
    exact hmem
  · intro hmem
    exact ⟨_, hmem, rfl, rfl⟩

/-- The loop comes to its end and its flag is set exactly if the wanted node is targeted. -/
def Exact (flag : Option Bool) (bResp : RawBrowseResponse) (wanted : ByteString) : Prop :=
  flag ≠ none ∧ (flag = some true ↔ Targets bResp wanted)

theorem exact_iff {flag : Option Bool} {bResp : RawBrowseResponse} {wanted : ByteString} :
    Exact flag bResp wanted ↔
      flag = some (decide (RawNodeId.string 1 wanted ∈ bResp.targets)) := by
  rw [Exact, targets_iff]
  rcases flag with - | - | -
  · simp
  · simp
  · simp

/-- No identifier is formatted but that of a string id. -/
def StringsOnly (tr : List (Event Formatted)) : Prop :=
  ∀ nodeId, written (.nodeIdString nodeId) ∈ tr → nodeId.IsString

section Searches

variable {P : Platform} {bResp : RawBrowseResponse} {tr : List (Event Formatted)}
variable {flag : Option Bool}

theorem searchLoop_exact_iff (wanted : Name)
    (h : Run (searchLoop P wanted.text bResp.targets false).run tr flag) :
    Exact flag bResp wanted.text ↔
      Readable P bResp.targets ∧ Unmistakable P wanted.text bResp.targets := by
  rcases searchLoop_run_iff.1 h with ⟨-, rfl⟩
  rw [exact_iff, loopResult_exact_iff]

/-- A loop that reads every identifier formats those of all targets, whatever their tags. -/
theorem searchLoop_stringsOnly_iff {wanted : ByteString} (hread : Readable P bResp.targets)
    (h : Run (searchLoop P wanted bResp.targets false).run tr flag) :
    StringsOnly tr ↔ ∀ nodeId ∈ bResp.targets, nodeId.IsString := by
  rcases searchLoop_run_iff.1 h with ⟨rfl, -⟩
  rw [visited_of_readable hread]
  simp [StringsOnly]

end Searches

/-- Both searches are exact and treat no other identifier as a string exactly when the reply has
only string ids, all of which can be read, and for neither wanted text an impostor without the
wanted node.  The flags alone are right without the first of these conditions. -/
theorem search_exact_iff {P : Platform} {bResp : RawBrowseResponse} {fb_id var_id : Name}
    {tr tr' : List (Event Formatted)} {node_found var_found : Option Bool}
    (hnode : Run (objectSearch P bResp fb_id).run tr node_found)
    (hvar : Run (variableSearch P bResp fb_id var_id).run tr' var_found) :
    ((Exact node_found bResp fb_id.text ∧ Exact var_found bResp (varBrowseId fb_id var_id) ∧
          StringsOnly tr ∧ StringsOnly tr') ↔
        (∀ nodeId ∈ bResp.targets, nodeId.IsString) ∧ Readable P bResp.targets ∧
          Unmistakable P fb_id.text bResp.targets ∧
          Unmistakable P (varBrowseId fb_id var_id) bResp.targets) ∧
      ((Exact node_found bResp fb_id.text ∧ Exact var_found bResp (varBrowseId fb_id var_id)) ↔
        Readable P bResp.targets ∧ Unmistakable P fb_id.text bResp.targets ∧
          Unmistakable P (varBrowseId fb_id var_id) bResp.targets) := by
  have hobject := searchLoop_exact_iff fb_id hnode
  have hvariable := searchLoop_exact_iff (varBrowseName fb_id var_id) hvar
  have hflags : (Exact node_found bResp fb_id.text ∧
        Exact var_found bResp (varBrowseId fb_id var_id)) ↔
      Readable P bResp.targets ∧ Unmistakable P fb_id.text bResp.targets ∧
        Unmistakable P (varBrowseId fb_id var_id) bResp.targets := by
    rw [hobject]
    constructor
    · rintro ⟨⟨hread, hfb⟩, hexact⟩
      exact ⟨hread, hfb, (hvariable.1 hexact).2⟩
    · rintro ⟨hread, hfb, hitem⟩
      exact ⟨⟨hread, hfb⟩, hvariable.2 ⟨hread, hitem⟩⟩
  refine ⟨?_, hflags⟩
  -- Exact flags mean that every target was read, so every target was formatted.
  constructor
  · rintro ⟨hnode', hvar', hstrings, -⟩
    have hread := (hflags.1 ⟨hnode', hvar'⟩).1
    exact ⟨(searchLoop_stringsOnly_iff hread hnode).1 hstrings, hflags.1 ⟨hnode', hvar'⟩⟩
  · rintro ⟨hall, hread, hrest⟩
    rcases hflags.2 ⟨hread, hrest⟩ with ⟨hnode', hvar'⟩
    exact ⟨hnode', hvar', (searchLoop_stringsOnly_iff hread hnode).2 hall,
      (searchLoop_stringsOnly_iff hread hvar).2 hall⟩

/-- The reply of an objects folder with one child. -/
def oneTarget (nodeId : RawNodeId) : RawBrowseResponse where
  serviceResult := StatusCode.good
  results := [{
    statusCode := StatusCode.good
    references := [{ referenceTypeId := organizes, isForward := true, nodeId := nodeId }] }]

/-- The instance name of a motor. -/
def motorName : Name where
  text := ascii "MOTOR"
  nonempty := by decide
  zeroFree := by decide

/-- The name of its output. -/
def outputName : Name where
  text := ascii "RUN"
  nonempty := by decide
  zeroFree := by decide

/-- The loop formats the one child, and its flag is that of the child's text. -/
theorem oneTarget_run (nodeId : RawNodeId) (wanted : ByteString) :
    Run (searchLoop glibc wanted (oneTarget nodeId).targets false).run
      [written (.nodeIdString nodeId)] (loopResult glibc wanted [nodeId] false) := by
  refine searchLoop_run_iff.2 ⟨?_, rfl⟩
  simp [oneTarget, RawBrowseResponse.targets, visited]

/-- A reply with the object of the motor and nothing else is searched exactly. -/
theorem motor_search_exact :
    Exact (some true) (oneTarget (RawNodeId.string 1 (ascii "MOTOR"))) (ascii "MOTOR") ∧
      Exact (some false) (oneTarget (RawNodeId.string 1 (ascii "MOTOR")))
        (varBrowseId motorName outputName) ∧
      StringsOnly [written (.nodeIdString (RawNodeId.string 1 (ascii "MOTOR")))] ∧
      StringsOnly [written (.nodeIdString (RawNodeId.string 1 (ascii "MOTOR")))] := by
  have hnode : Run (objectSearch glibc (oneTarget (RawNodeId.string 1 (ascii "MOTOR")))
      motorName).run _ (some true) := oneTarget_run _ _
  have hvar : Run (variableSearch glibc (oneTarget (RawNodeId.string 1 (ascii "MOTOR")))
      motorName outputName).run _ (some false) := oneTarget_run _ _
  refine (search_exact_iff hnode hvar).1.2 ⟨?_, by decide, Or.inl (by decide), ?_⟩
  · simp [oneTarget, RawBrowseResponse.targets, RawNodeId.IsString, RawNodeId.string]
  · exact (@unmistakable_iff glibc (varBrowseName motorName outputName) _).2 (by decide)

/-- A node of namespace 2 with the same identifier is taken for the object of the motor. -/
theorem foreign_object_found :
    Run (objectSearch glibc (oneTarget (RawNodeId.string 2 (ascii "MOTOR"))) motorName).run
        [written (.nodeIdString (RawNodeId.string 2 (ascii "MOTOR")))] (some true) ∧
      ¬ Exact (some true) (oneTarget (RawNodeId.string 2 (ascii "MOTOR"))) motorName.text := by
  refine ⟨oneTarget_run _ _, ?_⟩
  rw [exact_iff]
  decide

-- A numeric id shows the library's text for a null pointer.
example : loopResult glibc (ascii "(null)") [⟨0, .numeric 2253⟩] false = some true := by decide

end OpcUaPublish

end ForteOpcUa
