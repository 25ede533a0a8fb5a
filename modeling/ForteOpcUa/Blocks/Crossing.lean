import ForteOpcUa.Blocks.Tabled

/-!
# Crossing — two updates that lose the variable of a third port

A block `Motor` has three ports, each with its publisher.  On a new server the searches for
`Motor.MV` and `Motor.PV` start at the same place of the hash table, and where the one for
`Motor.PV` goes on the search for `Motor.VALUE` starts.  When the first two are deleted together
and added again in the other order, that place stays empty and `Motor.VALUE` is not found any more.

- `update_loses_variable` : though every call has succeeded, a published variable is missing,
- `updates_interfere`     : the same requests one after the other keep all three.
-/

namespace ForteOpcUa

open Interaction
open Store
open Store.TableServer (startup startup_standard)
open OpcUaPublish

/-! ## Three ports of one block -/

/-- The ports of the motor. -/
def motor (port : Fin 3) : ConnectionPoint where
  mFB := {
    instanceName := { text := ascii "Motor", nonempty := by decide, zeroFree := by decide }
    outputs := [
      { name := { text := ascii "MV", nonempty := by decide, zeroFree := by decide }
        dataType := .sint },
      { name := { text := ascii "PV", nonempty := by decide, zeroFree := by decide }
        dataType := .sint },
      { name := { text := ascii "VALUE", nonempty := by decide, zeroFree := by decide }
        dataType := .sint }] }
  mPortId := port

/-- The data point of each. -/
def motorPoint (port : Fin 3) : DataPoint where
  fb_id := (motor port).sourceFBName
  var_id := (motor port).sourceDataPointName
  fbDotFree := by
    revert port
    decide
  varDotFree := by
    revert port
    decide

/-- A publisher for each. -/
def motorPublishers (port : Fin 3) : Block :=
  .publisher {
    point := motorPoint port
    inputs := fun _ => {
      connection := some (motor port)
      IN := .sint 0
      typed := by
        rintro p ⟨⟩
        revert port
        decide }
    wired := fun _ => Or.inr ⟨motor port, rfl, rfl, rfl⟩ }

theorem motorPublishers_apart : Apart motorPublishers := by
  intro i j p hi hj
  have hinj : ∀ i j : Fin 3, motorPoint i = motorPoint j → i = j := by decide
  exact hinj i j (Option.some.inj (hi.trans hj.symm))

theorem motorPublishers_unpublished : Unpublished motorPublishers startup.directory where
  standard := startup_standard
  object i p hp := by
    cases hp
    revert i
    decide +kernel
  «variable» i p hp := by
    cases hp
    revert i
    decide +kernel

/-! ## Two runs with the same requests -/

/-- The three variables are published one after the other. -/
def threePublished : List (Action (Fin 3) Fault) :=
  [.start 0] ++ answers 0 8 ++ [.start 1] ++ answers 1 8 ++ [.start 2] ++ answers 2 8

/-- Then `PV` and `MV` are updated: both variables are deleted before either is added. -/
def crossing : List (Action (Fin 3) Fault) :=
  threePublished ++ [.start 1] ++ answers 1 5 ++ [.start 0] ++ answers 0 5 ++ answers 1 4 ++
    answers 0 4

/-- The same updates one after the other. -/
def oneByOne : List (Action (Fin 3) Fault) :=
  threePublished ++ [.start 1] ++ answers 1 9 ++ [.start 0] ++ answers 0 9

/-- The requests that each publisher has handled then. -/
def motorRounds (port : Fin 3) : ℕ :=
  if port = 2 then 1 else 2

/-- The device after a schedule. -/
def motorAfter (as : List (Action (Fin 3) Fault)) :
    Option (Config Client (Fin 3) Station TableNetwork) :=
  (tableSite motorPublishers).run (System.init (fun _ => Station.init) startupNetwork) as

/-- All calls succeeded, and the variable of `VALUE` is found or not. -/
def succeededWith (found : Bool) (c : Config Client (Fin 3) Station TableNetwork) : Bool :=
  finished motorRounds c && decide (∀ e ∈ c.log, Successful ⟨e.op, e.reply⟩) &&
    (c.shared localServer).any fun τ =>
      decide ((τ.directory.get (motorPoint 2).variableId).isSome = found)

theorem exists_succeeded {found : Bool} {o : Option (Config Client (Fin 3) Station TableNetwork)}
    (h : o.map (succeededWith found) = some true) :
    ∃ c, o = some c ∧ System.Quiescent c ∧ (∀ i, (c.thread i).round = motorRounds i) ∧
      (∀ e ∈ c.log, Successful ⟨e.op, e.reply⟩) ∧ ∃ τ, c.shared localServer = some τ ∧
        (τ.directory.get (motorPoint 2).variableId).isSome = found := by
  rcases Option.map_eq_some_iff.1 h with ⟨c, hc, hall⟩
  simp only [succeededWith, Bool.and_eq_true, decide_eq_true_eq, Option.any_eq_true] at hall
  rcases hall with ⟨⟨hfinished, hgood⟩, τ, hτ, hfound⟩
  have hmap : (some c).map (finished motorRounds) = some true := by
    rw [Option.map_some, hfinished]
  rcases exists_finished hmap with ⟨c', hsame, hq, hround⟩
  cases hsame
  exact ⟨c, hc, hq, hround, hgood, τ, hτ, hfound⟩

theorem crossing_succeeded : (motorAfter crossing).map (succeededWith false) = some true := by
  decide +kernel

theorem oneByOne_succeeded : (motorAfter oneByOne).map (succeededWith true) = some true := by
  decide +kernel

/-! ## What is lost -/

/-- No request is in flight and every call has succeeded, but a published variable is missing. -/
theorem update_loses_variable : Unpublished motorPublishers startup.directory ∧
    (∀ act ∈ crossing, act.faultFree) ∧ ∃ c, motorAfter crossing = some c ∧
      System.Quiescent c ∧ (∀ e ∈ c.log, Successful ⟨e.op, e.reply⟩) ∧
      ∃ τ, c.shared localServer = some τ ∧ ¬ ∀ i p r, (motorPublishers i).point = some p →
        (motorPublishers i).Publishes r → r < (c.thread i).round → InPlace τ.directory p := by
  rcases exists_succeeded crossing_succeeded with ⟨c, hrun, hq, hround, hgood, τ, hτ, hlost⟩
  refine ⟨motorPublishers_unpublished, by decide, c, hrun, hq, hgood, τ, hτ, fun hall => ?_⟩
  have hpub : (motorPublishers 2).Publishes 0 := by
    intro hnone
    cases hnone
  have hplace := hall 2 (motorPoint 2) 0 rfl hpub (by rw [hround]; decide)
  rw [hplace.item] at hlost
  cases hlost

/-- Publishers of different data points that have handled the same requests in different orders,
and address spaces that differ. -/
theorem updates_interfere : Apart motorPublishers ∧ (∀ act ∈ crossing, act.faultFree) ∧
    (∀ act ∈ oneByOne, act.faultFree) ∧ ∃ c c', motorAfter crossing = some c ∧
      motorAfter oneByOne = some c' ∧ System.Quiescent c ∧ System.Quiescent c' ∧
      (∀ i, (c.thread i).round = (c'.thread i).round) ∧
      ∃ τ τ', c.shared localServer = some τ ∧ c'.shared localServer = some τ' ∧
        ¬ τ.directory.Reordered τ'.directory := by
  rcases exists_succeeded crossing_succeeded with ⟨c, hrun, hq, hround, -, τ, hτ, hlost⟩
  rcases exists_succeeded oneByOne_succeeded with ⟨c', hrun', hq', hround', -, τ', hτ', hkept⟩
  refine ⟨motorPublishers_apart, by decide, by decide, c, c', hrun, hrun', hq, hq',
    fun i => (hround i).trans (hround' i).symm, τ, τ', hτ, hτ', fun hsame => ?_⟩
  -- A node on one side only.
  have hnode := hsame.nodes (motorPoint 2).variableId
  rw [Option.isSome_eq_false_iff, Option.isNone_iff_eq_none] at hlost
  rcases Option.isSome_iff_exists.1 hkept with ⟨n, hn⟩
  rw [hlost, hn] at hnode
  cases hnode

end ForteOpcUa
