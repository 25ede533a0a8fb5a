import ForteOpcUa.Server.Accesses
import ForteOpcUa.Store.Removal

/-!
# TableServer — the services over the hash table

The server as it runs: the services of `Accesses` executed against the node store of `NodeTable`.

- `TableServer`      : namespaces, a table in which every search ends, and the memory still to come,
- `directory`        : the address space that the server presents, as a map,
- `Safe`             : an insertion that gets its memory, a removal that blocks no other node,
- `access_agrees`    : along safe accesses the table is the map of `Services`.

An access that is not safe is where the table and the map part.
-/

namespace ForteOpcUa

namespace Store

open NodeTable Interaction

/-! ## The map behind a table -/

namespace NodeTable

/-- What a search finds has the id it was asked for. -/
theorem nodeId_of_get {ns : NodeTable} {id : NodeId} {e : NodeEntry}
    (h : ns.get id = some (some e)) : e.nodeId = id := by
  simp only [get, Option.map_eq_some_iff] at h
  rcases h with ⟨⟨found, i⟩, hfound, hentry⟩
  cases found with
  | false => cases hentry
  | true =>
      simp only [containsNodeId, Option.map_eq_some_iff, Prod.mk.injEq] at hfound
      rcases hfound with ⟨j, hsearch, -, rfl⟩
      rcases Probing.search_eq_some_iff.1 hsearch with ⟨n, -, hstop, rfl⟩
      exact Probing.key_of_stopsFor hstop.stops hentry

/-- A faithful table is one for the map of what it finds. -/
theorem Faithful.models {ns : NodeTable} (h : ns.Faithful) :
    ∃ c, Models ns c ∧ ∀ id, ns.get id = some (c.nodes id) := by
  have hfree := Nat.lt_of_le_of_lt h.occupied_le h.room
  have hmodels : Models ns ⟨fun id => (ns.get id).getD none, ns.size⟩ := by
    refine ⟨h, ?_, rfl⟩
    intro id e
    rcases containsNodeId_spec h.toSized hfree id with ⟨n, hstop, hfound⟩
    have hget : (ns.get id).getD none = ns.slot ((scheme ns.size).place id n) := by
      cases hslot : ns.slot ((scheme ns.size).place id n) <;> simp [get, hfound, hslot]
    dsimp only
    rw [hget, h.chained.find hstop e, and_comm]
    exact Iff.rfl
  exact ⟨_, hmodels, fun id => get_eq hmodels id⟩

end NodeTable

/-! ## Removals that lose nodes -/

namespace NodeTable

/-- The walk of some node crosses the place of `id`. -/
def blocking (ns : NodeTable) (id : NodeId) : Bool :=
  (List.range ns.size).any fun i =>
    (ns.slot i).any (fun e => decide (e.nodeId = id)) &&
      (List.range ns.size).any fun j =>
        decide (i ≠ j) && (ns.slot j).any fun e' =>
          (scheme ns.size).passes e'.nodeId j i ns.size ((scheme ns.size).start e'.nodeId)

/-- A walk that crosses a place on its way does so within one round of the table. -/
theorem crosses_iff {ns : NodeTable} (h : ns.Sized) {id : NodeId} {i j : ℕ} (hj : j < ns.size) :
    (scheme ns.size).Crosses id j i ↔
      (scheme ns.size).passes id j i ns.size ((scheme ns.size).start id) = true := by
  rw [Probing.passes_iff]
  constructor
  · rintro ⟨n, hat, hbefore⟩
    refine ⟨n, ?_, hat, hbefore⟩
    have hseven := seven_le h.prime
    have hstart : mod (hash id).toNat ns.size < ns.size := Nat.mod_lt _ (by omega)
    rcases exists_nextIndex h.prime h.bounded (hash id).toNat hstart hj with ⟨m, hm, hplace⟩
    -- The round comes to `j`, so the walk has not gone on for that long.
    by_contra hge
    exact hbefore m (Nat.le_trans (Nat.le_of_lt hm) (Nat.not_lt.1 hge)) hplace
  · rintro ⟨n, -, hat, hbefore⟩
    exact ⟨n, hat, hbefore⟩

theorem blocking_iff {ns : NodeTable} (h : ns.Sized) (id : NodeId) :
    ns.blocking id = true ↔ ∃ id', ns.Blocks id id' := by
  have hin : ∀ {i e}, ns.slot i = some e → i < ns.size := by
    intro i e hi
    by_contra hge
    rw [slot_eq_none (by rw [h.length]; exact Nat.not_lt.1 hge)] at hi
    cases hi
  simp only [blocking, List.any_eq_true, List.mem_range, Bool.and_eq_true, Option.any_eq_true,
    decide_eq_true_eq]
  constructor
  · rintro ⟨i, -, ⟨e, he, hkey⟩, j, hj, hne, e', he', hpass⟩
    exact ⟨e'.nodeId, i, j, e, e', he, hkey, he', rfl, hne, (crosses_iff h hj).2 hpass⟩
  · rintro ⟨id', i, j, e, e', he, hkey, he', rfl, hne, hcross⟩
    exact ⟨i, hin he, ⟨e, he, hkey⟩, j, hin he', hne, e', he',
      (crosses_iff h (hin he')).1 hcross⟩

theorem harmless_remove_iff {ns : NodeTable} (h : ns.Sized) (alloc : Allocator) (id : NodeId) :
    Harmless ns (.remove alloc id) ↔ shrinks alloc ns = true ∨ ns.blocking id = false := by
  have hblock := blocking_iff h id
  rw [Harmless, ← Bool.not_eq_true, hblock, not_exists]

end NodeTable

/-! ## The server -/

/-- The status a call of the node store returns. -/
def Reply.statusCode : Reply → StatusCode
  | .inserted code _ => code
  | .found _ => StatusCode.good
  | .status code => code

/-- The entry a call of the node store returns. -/
def Reply.entry : Reply → Option NodeEntry
  | .inserted _ entry => entry
  | .found entry => entry
  | .status _ => none

/-- The operation of the table behind an access. -/
def op (alloc : Allocator) : Access → Op
  | .get id => .get id
  | .editNode id callback => .editNode id callback
  | .insert node => .insert alloc node
  | .remove id => .remove alloc id

/-- What the service sees of the reply. -/
def answer : (a : Access) → Reply → a.Reply
  | .get _, reply => reply.entry.map NodeEntry.node
  | .editNode _ _, reply => reply.statusCode
  | .insert _, reply => reply.statusCode
  | .remove _, reply => reply.statusCode

/-- The part of `UA_Server` the services use.  `memory n` is what is granted during the access after
the next `n`. -/
structure TableServer where
  namespacesSize : ℕ
  nodestore : NodeTable
  valid : nodestore.Valid
  memory : ℕ → Allocator

namespace TableServer

/-- Every call returns. -/
theorem isSome_apply (τ : TableServer) (op : Op) : (τ.nodestore.apply op).isSome = true := by
  rcases apply_valid τ.valid op with ⟨reply, ns', heq, -⟩
  rw [heq]
  rfl

theorem valid_apply (τ : TableServer) (op : Op) :
    ((τ.nodestore.apply op).get (τ.isSome_apply op)).2.Valid := by
  rcases apply_valid τ.valid op with ⟨reply, ns', heq, hvalid⟩
  simpa [heq] using hvalid

/-- One access to the node store. -/
def access : Prog.Handler Accesses TableServer := fun a τ =>
  let called := (τ.nodestore.apply (op (τ.memory 0) a)).get (τ.isSome_apply _)
  (answer a called.1, {
    namespacesSize := τ.namespacesSize
    nodestore := called.2
    valid := τ.valid_apply _
    memory := fun n => τ.memory (n + 1) })

/-- The address space: each id with the node that is found under it. -/
def directory (τ : TableServer) : Server where
  namespacesSize := τ.namespacesSize
  nodestore := {
    get := fun id => ((τ.nodestore.get id).getD none).map NodeEntry.node
    keyed := by
      intro id n h
      rcases Option.map_eq_some_iff.1 h with ⟨e, he, rfl⟩
      cases hget : τ.nodestore.get id with
      | none => simp [hget] at he
      | some found =>
          rw [hget, Option.getD_some] at he
          subst he
          exact nodeId_of_get hget }

/-- Every node in the table is found. -/
def Faithful (τ : TableServer) : Prop :=
  τ.nodestore.Faithful

/-- A text is copied, room is made and an entry is granted. -/
def Granted (alloc : Allocator) (ns : NodeTable) (node : Node) : Prop :=
  asksForId alloc node.nodeId = false ∧
    (makeRoom alloc ns).map Prod.fst = some StatusCode.good ∧ alloc.entry ≠ none

instance (alloc : Allocator) (ns : NodeTable) (node : Node) : Decidable (Granted alloc ns node) :=
  inferInstanceAs (Decidable (_ ∧ _ ∧ _))

/-- An insertion is granted its memory, and a removal is harmless to all other nodes. -/
def Safe : Access → TableServer → Prop
  | .insert node, τ => Granted (τ.memory 0) τ.nodestore node
  | .remove id, τ => Harmless τ.nodestore (.remove (τ.memory 0) id)
  | _, _ => True

instance (a : Access) (τ : TableServer) : Decidable (Safe a τ) :=
  match a with
  | .get _ => .isTrue trivial
  | .editNode _ _ => .isTrue trivial
  | .insert node => inferInstanceAs (Decidable (Granted (τ.memory 0) τ.nodestore node))
  | .remove id => decidable_of_iff _ (harmless_remove_iff τ.valid.toSized (τ.memory 0) id).symm

/-! ## Table and map -/

/-- The map is what the table finds, and the table finds all it holds. -/
def Presents (τ : TableServer) (σ : Server) : Prop :=
  τ.Faithful ∧ σ = τ.directory

theorem access_eq {τ : TableServer} {a : Access} {reply : Reply} {ns' : NodeTable}
    (h : τ.nodestore.apply (op (τ.memory 0) a) = some (reply, ns')) :
    (access a τ).1 = answer a reply ∧ (access a τ).2.nodestore = ns' := by
  simp [access, h]

theorem get_directory {τ : TableServer} {c : Catalogue} (h : Models τ.nodestore c) (id : NodeId) :
    τ.directory.get id = (c.nodes id).map NodeEntry.node := by
  simp [directory, Server.get, get_eq h id]

/-- The nodes of a catalogue with one entry changed. -/
theorem map_update {τ : TableServer} {c : Catalogue} (h : Models τ.nodestore c) (id id' : NodeId)
    (e : Option NodeEntry) :
    (Function.update c.nodes id e id').map NodeEntry.node =
      if id' = id then e.map NodeEntry.node else τ.directory.get id' := by
  by_cases hsame : id' = id
  · rw [if_pos hsame, hsame, Function.update_self]
  · rw [if_neg hsame, Function.update_of_ne hsame, get_directory h]

theorem eq_directory {τ : TableServer} {c : Catalogue} {σ : Server} (h : Models τ.nodestore c)
    (hsize : σ.namespacesSize = τ.namespacesSize)
    (hget : ∀ id, σ.get id = (c.nodes id).map NodeEntry.node) : σ = τ.directory := by
  refine Server.ext_get hsize fun id => ?_
  rw [hget, get_directory h]

/-- Table and map agree when the map answers as the catalogue of the table does. -/
theorem agrees_of_step {τ : TableServer} {a : Access} {c' : Catalogue} {reply : Reply}
    {ns' : NodeTable} {σ : Server}
    (happ : τ.nodestore.apply (op (τ.memory 0) a) = some (reply, ns')) (hm' : Models ns' c')
    (hreply : (Server.access a σ).1 = answer a reply)
    (hsize : (Server.access a σ).2.namespacesSize = τ.namespacesSize)
    (hget : ∀ id, (Server.access a σ).2.get id = (c'.nodes id).map NodeEntry.node) :
    (Server.access a σ).1 = (access a τ).1 ∧ Presents (access a τ).2 (Server.access a σ).2 := by
  rcases access_eq happ with ⟨hanswer, hstore⟩
  have hm : Models (access a τ).2.nodestore c' := by
    rw [hstore]
    exact hm'
  exact ⟨hreply.trans hanswer.symm, hm.faithful, eq_directory hm hsize hget⟩

section Agreement

variable {τ : TableServer} {c : Catalogue}

theorem get_agrees (h : Models τ.nodestore c) (id : NodeId) :
    (Server.access (.get id) τ.directory).1 = (access (.get id) τ).1 ∧
      Presents (access (.get id) τ).2 (Server.access (.get id) τ.directory).2 := by
  rcases answers_get h id with ⟨reply, ns', c', happ, hstep, hm'⟩
  cases hstep
  exact agrees_of_step happ hm' (get_directory h id) rfl (get_directory h)

theorem editNode_agrees (h : Models τ.nodestore c) (id : NodeId)
    (callback : Node → StatusCode × Node) :
    (Server.access (.editNode id callback) τ.directory).1 = (access (.editNode id callback) τ).1 ∧
      Presents (access (.editNode id callback) τ).2
        (Server.access (.editNode id callback) τ.directory).2 := by
  rcases answers_editNode h id callback with ⟨reply, ns', c', happ, hstep, hm'⟩
  have hid := get_directory h id
  cases hstep with
  | editUnknown hnone =>
      rw [hnone, Option.map_none] at hid
      have hsame : Server.access (.editNode id callback) τ.directory =
          (StatusCode.badNodeIdUnknown, τ.directory) := Server.editNode_of_none hid
      exact agrees_of_step happ hm' (by rw [hsame]; rfl) (by rw [hsame]; rfl)
        (by rw [hsame]; exact get_directory h)
  | edited hsome =>
      rename_i e
      have hkey : e.node.nodeId = id := ((h.represents id e).1 hsome).2
      rw [hsome, Option.map_some] at hid
      have hedit : Server.access (.editNode id callback) τ.directory =
          ((callback e.node).1,
            τ.directory.put { (callback e.node).2 with nodeId := e.node.nodeId }) :=
        by simp [Server.access, Server.editNode, hid]
      refine agrees_of_step happ hm' (by rw [hedit]; rfl) (by rw [hedit]; rfl) ?_
      intro id'
      rw [hedit, Server.get_put, map_update h, hkey]
      rfl

theorem insert_agrees (h : Models τ.nodestore c) {node : Node}
    (hgranted : Granted (τ.memory 0) τ.nodestore node) :
    (Server.access (.insert node) τ.directory).1 = (access (.insert node) τ).1 ∧
      Presents (access (.insert node) τ).2 (Server.access (.insert node) τ.directory).2 := by
  rcases answers_insert h (τ.memory 0) node with ⟨reply, ns', c', happ, hstep, hm'⟩
  have hid := get_directory h node.nodeId
  cases hstep with
  | noTable hnone =>
      rcases h.makeRoom (τ.memory 0) with ⟨-, hrefused⟩ | ⟨ns₁, -, hplaces, -⟩
      · rcases hgranted with ⟨-, hroom, -⟩
        rw [hrefused, Option.map_some, Option.some.injEq] at hroom
        exact absurd hroom StatusCode.badOutOfMemory_ne_good
      · rw [hnone] at hplaces
        cases hplaces
  | noEntry _ _ hdenied => exact absurd hdenied hgranted.2.2
  | «exists» _ _ hin =>
      rcases Option.ne_none_iff_exists'.1 hin with ⟨e, he⟩
      rw [he, Option.map_some] at hid
      have hrefused : Server.access (.insert node) τ.directory =
          (StatusCode.badNodeIdExists, τ.directory) :=
        Server.access_insert_none (by simp [NodeStore.insert, hid])
      refine agrees_of_step happ hm' (by rw [hrefused]; rfl) (by rw [hrefused]; rfl) ?_
      intro id'
      rw [hrefused, get_directory h]
  | inserted _ hnamed _ =>
      have hown := hnamed.own hgranted.1
      subst hown
      rw [hnamed.unused, Option.map_none] at hid
      have hstored : Server.access (.insert node) τ.directory =
          (StatusCode.good, τ.directory.put node) :=
        Server.access_insert_some (by simp [NodeStore.insert, hid])
      refine agrees_of_step happ hm' (by rw [hstored]; rfl) (by rw [hstored]; rfl) ?_
      intro id'
      rw [hstored, Server.get_put, map_update h]
      rfl

theorem remove_agrees (h : Models τ.nodestore c) {id : NodeId}
    (hharm : Harmless τ.nodestore (.remove (τ.memory 0) id)) :
    (Server.access (.remove id) τ.directory).1 = (access (.remove id) τ).1 ∧
      Presents (access (.remove id) τ).2 (Server.access (.remove id) τ.directory).2 := by
  rcases answers_remove h hharm with ⟨reply, ns', c', happ, hstep, hm'⟩
  have hid := get_directory h id
  have hget : ∀ id', (Server.access (.remove id) τ.directory).2.get id' =
      if id' = id then none else τ.directory.get id' :=
    τ.directory.nodestore.get_remove id
  cases hstep with
  | removeUnknown hnone =>
      rw [hnone, Option.map_none] at hid
      refine agrees_of_step happ hm' (by simp [Server.access, hid, answer, Reply.statusCode]) rfl ?_
      intro id'
      rw [hget, get_directory h]
      split
      · rename_i hsame
        rw [hsame, hnone]
        rfl
      · rfl
  | removed hin =>
      rcases Option.ne_none_iff_exists'.1 hin with ⟨e, he⟩
      rw [he, Option.map_some] at hid
      refine agrees_of_step happ hm' (by simp [Server.access, hid, answer, Reply.statusCode]) rfl ?_
      intro id'
      rw [hget, map_update h]
      rfl

end Agreement

/-- A safe access is answered by the table as by the map, and leaves a table that finds all it
holds. -/
theorem access_agrees : Prog.Agree access Server.access Safe Presents := by
  rintro a τ σ ⟨hfaithful, rfl⟩ hsafe
  rcases NodeTable.Faithful.models hfaithful with ⟨c, hm, -⟩
  cases a with
  | get id => exact get_agrees hm id
  | editNode id callback => exact editNode_agrees hm id callback
  | insert node => exact insert_agrees hm hsafe
  | remove id => exact remove_agrees hm hsafe

end TableServer

end Store

end ForteOpcUa
