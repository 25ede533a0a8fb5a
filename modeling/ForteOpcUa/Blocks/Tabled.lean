import ForteOpcUa.Blocks.Apart
import ForteOpcUa.Client.Tables
import ForteOpcUa.Store.Startup

/-!
# Tabled — publishers at a server over a hash table

`Racing` and `Apart` are about address spaces that are maps.  The server keeps its nodes in a hash
table, where a removal may lose nodes other than the one it removes.  Along requests that are safe
in this respect the device is the one over maps, and the results hold of it:

- `publishers_converge` : with no request in flight every published variable is in place,
- `publish_accounted`   : a confirmed publish request was accepted or overtaken, and the variable
  that is there is that of the last accepted AddNodes request,
- `publishers_apart`    : with one publisher to a data point, two runs with the same requests end in
  the same address space.
-/

namespace ForteOpcUa

open Interaction
open Store
open Store.TableServer (startup startup_faithful startup_standard)
open OpcUaPublish

/-- The device with exact search loops, its servers over hash tables. -/
def tableSite {ι : Type} (blocks : ι → Block) : System Client ι Station TableNetwork Fault :=
  tableDevice fun i r => ((blocks i).request r).program exactText

section Tabled

variable {ι : Type} [DecidableEq ι] {blocks : ι → Block} {net : TableNetwork} {τ₀ : TableServer}
variable {as as' : List (Action ι Fault)} {c c' : Config Client ι Station TableNetwork}

/-- Along safe requests a run over tables is one over the maps that they present. -/
theorem run_over_maps (hfound : ∀ url τ, net url = some τ → τ.Faithful)
    (hsafe : (tableSite blocks).Along SafeAt (System.init (fun _ => Station.init) net) as)
    (hrun : (tableSite blocks).run (System.init (fun _ => Station.init) net) as = some c) :
    ∃ d, (site blocks).run (System.init (fun _ => Station.init) net.directory) as = some d ∧
      System.Corresponds PresentsAll c d :=
  (devices_agree _).run (System.corresponds_init _ (presentsAll_directory hfound)) hsafe hrun

omit [DecidableEq ι] in
/-- The server at an address, behind the map that stands for it. -/
theorem presented {d : Config Client ι Station Network} (h : System.Corresponds PresentsAll c d)
    {url : ByteString} {σ : Server} (hσ : d.shared url = some σ) :
    ∃ τ, c.shared url = some τ ∧ σ = τ.directory := by
  rcases h.shared.cases url with ⟨-, hnone⟩ | ⟨τ, σ', hτ, hσ', hpresents⟩
  · rw [hnone] at hσ
    cases hσ
  · rw [hσ'] at hσ
    cases hσ
    exact ⟨τ, hτ, hpresents.2⟩

omit [DecidableEq ι] in
theorem quiescent_of_corresponds {d : Config Client ι Station Network}
    (h : System.Corresponds PresentsAll c d) (hq : System.Quiescent c) : System.Quiescent d := by
  intro i
  rw [h.thread]
  exact hq i

/-- Any number of publishers, some of which may share a block or a whole data point, and readers,
in any order: whenever no request is in flight, the data point of every finished publish request
is in place. -/
theorem publishers_converge (hlocal : net localServer = some τ₀)
    (hfound : ∀ url τ, net url = some τ → τ.Faithful) (hnew : Unpublished blocks τ₀.directory)
    (hfault : ∀ act ∈ as, act.faultFree)
    (hsafe : (tableSite blocks).Along SafeAt (System.init (fun _ => Station.init) net) as)
    (hrun : (tableSite blocks).run (System.init (fun _ => Station.init) net) as = some c)
    (hq : System.Quiescent c) :
    ∃ τ, c.shared localServer = some τ ∧
      ∀ i p r, (blocks i).point = some p → (blocks i).Publishes r → r < (c.thread i).round →
        InPlace τ.directory p := by
  rcases run_over_maps hfound hsafe hrun with ⟨d, hrun', hcd⟩
  rcases inPlace_of_quiescent (TableNetwork.directory_some hlocal) hnew hfault hrun'
    (quiescent_of_corresponds hcd hq) with ⟨σ, hσ, hplace⟩
  rcases presented hcd hσ with ⟨τ, hτ, rfl⟩
  rw [hcd.thread] at hplace
  exact ⟨τ, hτ, hplace⟩

/-- Publishers and readers in any order.  In every state reached each confirmed publish request
was accepted or overtaken.  A variable that exists is the one of the last accepted request to add
it, and has not been deleted since; with no request in flight every published variable exists. -/
theorem publish_accounted (hlocal : net localServer = some τ₀)
    (hfound : ∀ url τ, net url = some τ → τ.Faithful) (hnew : Unpublished blocks τ₀.directory)
    (hfault : ∀ act ∈ as, act.faultFree)
    (hsafe : (tableSite blocks).Along SafeAt (System.init (fun _ => Station.init) net) as)
    (hrun : (tableSite blocks).run (System.init (fun _ => Station.init) net) as = some c) :
    (∀ i p r, (blocks i).point = some p → (blocks i).Publishes r →
      (∃ e ∈ c.log, IsConfirmation i r e) → AcceptedOrOvertaken p i r c.log) ∧
    ∃ τ, c.shared localServer = some τ ∧ ∀ i p, (blocks i).point = some p →
      (τ.directory.get p.variableId ≠ none →
        τ.directory.get p.variableId = some (Server.childNode p.variableItem) ∧
        Latest (fun e => addReply p e = some StatusCode.good)
          (fun e => addReply p e = some StatusCode.good ∨
            deleteReply p e = some StatusCode.good) c.log) ∧
      (System.Quiescent c → (∃ r < (c.thread i).round, (blocks i).Publishes r) →
        τ.directory.get p.variableId ≠ none) := by
  rcases run_over_maps hfound hsafe hrun with ⟨d, hrun', hcd⟩
  rcases accounted_of_run (TableNetwork.directory_some hlocal) hnew hfault hrun' with
    ⟨hconfirmed, σ, hσ, hstate⟩
  rcases presented hcd hσ with ⟨τ, hτ, rfl⟩
  rw [hcd.log] at hconfirmed hstate
  rw [hcd.thread] at hstate
  refine ⟨hconfirmed, τ, hτ, fun i p hp => ⟨(hstate i p hp).1, fun hq => ?_⟩⟩
  exact (hstate i p hp).2 (quiescent_of_corresponds hcd hq)

/-- Publishers of different data points and readers, in any two orders, from any address space:
if every publisher handled the same requests, the address spaces are the same, and no other node
has changed on any server. -/
theorem publishers_apart (hapart : Apart blocks) (hlocal : net localServer = some τ₀)
    (hfound : ∀ url τ, net url = some τ → τ.Faithful)
    (hfault : ∀ act ∈ as, act.faultFree) (hfault' : ∀ act ∈ as', act.faultFree)
    (hsafe : (tableSite blocks).Along SafeAt (System.init (fun _ => Station.init) net) as)
    (hsafe' : (tableSite blocks).Along SafeAt (System.init (fun _ => Station.init) net) as')
    (hrun : (tableSite blocks).run (System.init (fun _ => Station.init) net) as = some c)
    (hrun' : (tableSite blocks).run (System.init (fun _ => Station.init) net) as' = some c')
    (hq : System.Quiescent c) (hq' : System.Quiescent c')
    (hround : ∀ i p, (blocks i).point = some p → (c.thread i).round = (c'.thread i).round) :
    (∃ τ τ', c.shared localServer = some τ ∧ c'.shared localServer = some τ' ∧
      τ.directory.Reordered τ'.directory ∧ Confined blocks τ₀.directory τ.directory) ∧
    ∀ url, url ≠ localServer → c.shared.directory url = net.directory url ∧
      c'.shared.directory url = net.directory url := by
  rcases run_over_maps hfound hsafe hrun with ⟨d, hd, hcd⟩
  rcases run_over_maps hfound hsafe' hrun' with ⟨d', hd', hcd'⟩
  have hsame : ∀ i p, (blocks i).point = some p → (d.thread i).round = (d'.thread i).round := by
    rw [hcd.thread, hcd'.thread]
    exact hround
  rcases reordered_of_apart hapart (TableNetwork.directory_some hlocal) hfault hfault' hd hd'
    (quiescent_of_corresponds hcd hq) (quiescent_of_corresponds hcd' hq') hsame with
    ⟨⟨σ, σ', hσ, hσ', hspace⟩, helse⟩
  rcases presented hcd hσ with ⟨τ, hτ, rfl⟩
  rcases presented hcd' hσ' with ⟨τ', hτ', rfl⟩
  refine ⟨⟨τ, τ', hτ, hτ', hspace⟩, fun url hurl => ?_⟩
  rw [← hcd.shared.directory_eq, ← hcd'.shared.directory_eq]
  exact helse url hurl

end Tabled

/-! ## A device with a new server -/

/-- A network with one server as `UA_Server_new` sets it up. -/
def startupNetwork : TableNetwork :=
  Function.update (fun _ => none) localServer (some startup)

theorem startupNetwork_found (url : ByteString) (τ : TableServer)
    (h : startupNetwork url = some τ) : τ.Faithful := by
  by_cases hurl : url = localServer
  · rw [hurl, startupNetwork, Function.update_self] at h
    cases h
    exact startup_faithful
  · rw [startupNetwork, Function.update_of_ne hurl] at h
    cases h

/-- Every block has handled so many requests. -/
def finished {ι : Type} [Fintype ι] (rounds : ι → ℕ) (c : Config Client ι Station TableNetwork) :
    Bool :=
  decide (∀ i, (c.thread i).code.isNone = true ∧ (c.thread i).round = rounds i)

theorem exists_finished {ι : Type} [Fintype ι] {rounds : ι → ℕ}
    {o : Option (Config Client ι Station TableNetwork)} (h : o.map (finished rounds) = some true) :
    ∃ c, o = some c ∧ System.Quiescent c ∧ ∀ i, (c.thread i).round = rounds i := by
  rcases Option.map_eq_some_iff.1 h with ⟨c, hc, hfinished⟩
  have hall := of_decide_eq_true hfinished
  exact ⟨c, hc, fun i => Option.isNone_iff_eq_none.1 (hall i).1, fun i => (hall i).2⟩

/-! ## Two blocks wired to one port -/

/-- Two publishers of the same port. -/
def twoPublishers (_ : Bool) : Block :=
  .publisher flipFlopPublisher

/-- Both browse the objects folder before either adds a node; then one finishes, and the other.
After that the first publishes once more. -/
def race : List (Action Bool Fault) :=
  [.start false, .start true] ++ answers false 3 ++ answers true 3 ++ answers false 5 ++
    answers true 5 ++ [.start false] ++ answers false 9

/-- The requests that the two have handled then. -/
def raceRounds (i : Bool) : ℕ :=
  if i then 1 else 2

/-- The device after the race. -/
def raced : Option (Config Client Bool Station TableNetwork) :=
  (tableSite twoPublishers).run (System.init (fun _ => Station.init) startupNetwork) race

theorem race_faultFree : ∀ act ∈ race, act.faultFree := by
  decide

theorem race_safe : (tableSite twoPublishers).Along SafeAt
    (System.init (fun _ => Station.init) startupNetwork) race := by
  decide +kernel

theorem twoPublishers_unpublished : Unpublished twoPublishers startup.directory where
  standard := startup_standard
  object i p hp := by
    cases hp
    decide +kernel
  «variable» i p hp := by
    cases hp
    decide +kernel

theorem raced_finished : raced.map (finished raceRounds) = some true := by
  decide +kernel

/-- The two publishers after their race. -/
theorem raced_inPlace : ∃ c, raced = some c ∧ ∃ τ, c.shared localServer = some τ ∧
    ∀ i p r, (twoPublishers i).point = some p → (twoPublishers i).Publishes r →
      r < (c.thread i).round → InPlace τ.directory p := by
  rcases exists_finished raced_finished with ⟨c, hrun, hq, -⟩
  exact ⟨c, hrun, publishers_converge rfl startupNetwork_found twoPublishers_unpublished
    race_faultFree race_safe hrun hq⟩

/-- The two publishers after their race. -/
theorem raced_accounted : ∃ c, raced = some c ∧
    (∀ i p r, (twoPublishers i).point = some p → (twoPublishers i).Publishes r →
      (∃ e ∈ c.log, IsConfirmation i r e) → AcceptedOrOvertaken p i r c.log) ∧
    ∃ τ, c.shared localServer = some τ ∧ ∀ i p, (twoPublishers i).point = some p →
      (τ.directory.get p.variableId ≠ none →
        τ.directory.get p.variableId = some (Server.childNode p.variableItem) ∧
        Latest (fun e => addReply p e = some StatusCode.good)
          (fun e => addReply p e = some StatusCode.good ∨
            deleteReply p e = some StatusCode.good) c.log) ∧
      (System.Quiescent c → (∃ r < (c.thread i).round, (twoPublishers i).Publishes r) →
        τ.directory.get p.variableId ≠ none) := by
  rcases exists_finished raced_finished with ⟨c, hrun, -, -⟩
  exact ⟨c, hrun, publish_accounted rfl startupNetwork_found twoPublishers_unpublished
    race_faultFree race_safe hrun⟩

/-- In the race the second publisher confirms although its request to add the variable node was
refused. -/
theorem second_refused_confirmed : Unpublished twoPublishers startup.directory ∧
    (∀ act ∈ race, act.faultFree) ∧ ∃ c, raced = some c ∧ System.Quiescent c ∧
      (twoPublishers true).point = some flipFlopPoint ∧ (twoPublishers true).Publishes 0 ∧
      (∃ e ∈ c.log, IsConfirmation true 0 e) ∧
      ¬ ∃ e ∈ c.log, e.thread = true ∧ e.round = 0 ∧
        addReply flipFlopPoint e = some StatusCode.good := by
  refine ⟨twoPublishers_unpublished, race_faultFree, ?_⟩
  rcases exists_finished raced_finished with ⟨c, hrun, hq, -⟩
  -- The run is evaluated once, for everything said about its history.
  have hlog : raced.map (fun c => decide ((∃ e ∈ c.log, IsConfirmation true 0 e) ∧
      ¬ ∃ e ∈ c.log, e.thread = true ∧ e.round = 0 ∧
        addReply flipFlopPoint e = some StatusCode.good)) = some true := by decide +kernel
  rw [hrun, Option.map_some, Option.some.injEq, decide_eq_true_eq] at hlog
  refine ⟨c, hrun, hq, rfl, ?_, hlog⟩
  intro hnone
  cases hnone

/-! ## Two ports of one block -/

/-- A second port of the flip-flop. -/
def flipFlopCount : ConnectionPoint where
  mFB := {
    instanceName := flipFlopPoint.fb_id
    outputs := [
      { name := flipFlopPoint.var_id, dataType := .sint },
      { name := { text := ascii "N", nonempty := by decide, zeroFree := by decide }
        dataType := .sint }] }
  mPortId := ⟨1, Nat.one_lt_two⟩

/-- A publisher of that port. -/
def countPublisher : Publisher where
  point := {
    fb_id := flipFlopCount.sourceFBName
    var_id := flipFlopCount.sourceDataPointName
    fbDotFree := by decide
    varDotFree := by decide }
  inputs _ := {
    connection := some flipFlopCount
    IN := .sint 0
    typed := by
      rintro p ⟨⟩
      rfl }
  wired _ := Or.inr ⟨flipFlopCount, rfl, rfl, rfl⟩

/-- Publishers of the two ports. -/
def portPublishers : Bool → Block
  | false => .publisher flipFlopPublisher
  | true => .publisher countPublisher

/-- The requests of the race, one after the other. -/
def serial : List (Action Bool Fault) :=
  [.start false] ++ answers false 8 ++ [.start true] ++ answers true 8 ++ [.start false] ++
    answers false 9

theorem portPublishers_apart : Apart portPublishers := by
  intro i j p hi hj
  have hne : flipFlopPublisher.point ≠ countPublisher.point := by decide
  -- The two ports have different names, so equal data points mean the same publisher.
  cases i with
  | false =>
      cases j with
      | false => rfl
      | true => exact absurd (Option.some.inj (hi.trans hj.symm)) hne
  | true =>
      cases j with
      | false => exact absurd (Option.some.inj (hj.trans hi.symm)) hne
      | true => rfl

/-- Racing for the object they share, or one after the other. -/
theorem race_serial_apart : ∃ c c',
    (tableSite portPublishers).run (System.init (fun _ => Station.init) startupNetwork) race =
      some c ∧
    (tableSite portPublishers).run (System.init (fun _ => Station.init) startupNetwork) serial =
      some c' ∧
    (∃ τ τ', c.shared localServer = some τ ∧ c'.shared localServer = some τ' ∧
      τ.directory.Reordered τ'.directory ∧
        Confined portPublishers startup.directory τ.directory) ∧
    ∀ url, url ≠ localServer → c.shared.directory url = startupNetwork.directory url ∧
      c'.shared.directory url = startupNetwork.directory url := by
  have hrace : ((tableSite portPublishers).run (System.init (fun _ => Station.init) startupNetwork)
      race).map (finished raceRounds) = some true := by
    decide +kernel
  have hserial : ((tableSite portPublishers).run (System.init (fun _ => Station.init)
      startupNetwork) serial).map (finished raceRounds) = some true := by
    decide +kernel
  rcases exists_finished hrace with ⟨c, hrun, hq, hround⟩
  rcases exists_finished hserial with ⟨c', hrun', hq', hround'⟩
  exact ⟨c, c', hrun, hrun', publishers_apart portPublishers_apart rfl startupNetwork_found
    race_faultFree (by decide) (by decide +kernel) (by decide +kernel) hrun hrun' hq hq'
    fun i p _ => (hround i).trans (hround' i).symm⟩

end ForteOpcUa
