import Mathlib.Data.List.Nodup
import ForteOpcUa.View.Paging

/-!
# Histories — the calls of a session and their answers

- `delivered`   : the pages of a continuation point put together,
- `History`     : what holds of the answers so far and the session,
- `pages_exact` : the pages are all the references, also when other browses come between.
-/

namespace ForteOpcUa

namespace View

/-! ## The list of continuation points -/

section Points

variable {identifier : ByteString} {cps : List ContinuationPoint}

theorem mem_erase {cp : ContinuationPoint}
    (hdistinct : (cps.map ContinuationPoint.identifier).Nodup)
    (h : cp ∈ cps.eraseP fun cp => cp.identifier = identifier) :
    cp ∈ cps ∧ cp.identifier ≠ identifier := by
  induction cps with
  | nil => cases h
  | cons cp' cps ih =>
      rw [List.map_cons, List.nodup_cons] at hdistinct
      by_cases hid : cp'.identifier = identifier
      · rw [List.eraseP_cons_of_pos (by simpa using hid)] at h
        refine ⟨List.mem_cons_of_mem cp' h, fun heq => hdistinct.1 ?_⟩
        rw [hid, ← heq]
        exact List.mem_map_of_mem h
      · rw [List.eraseP_cons_of_neg (by simpa using hid)] at h
        rcases List.mem_cons.1 h with rfl | h
        · exact ⟨List.mem_cons_self, hid⟩
        · rcases ih hdistinct.2 h with ⟨hmem, hne⟩
          exact ⟨List.mem_cons_of_mem cp' hmem, hne⟩

theorem length_erase {p : ContinuationPoint → Bool} {cp : ContinuationPoint} (hcp : cp ∈ cps)
    (hp : p cp = true) : (cps.eraseP p).length + 1 = cps.length := by
  have hpos := List.length_pos_of_mem hcp
  rw [List.length_eraseP_of_mem hcp hp]
  omega

theorem map_advance (n : ℕ) :
    (advance identifier n cps).map ContinuationPoint.identifier =
      cps.map ContinuationPoint.identifier := by
  induction cps with
  | nil => rfl
  | cons cp cps ih =>
      unfold advance
      split
      · rfl
      · rw [List.map_cons, List.map_cons, ih]

theorem mem_advance {n : ℕ} {cp : ContinuationPoint}
    (hdistinct : (cps.map ContinuationPoint.identifier).Nodup)
    (h : cp ∈ advance identifier n cps) :
    (cp ∈ cps ∧ cp.identifier ≠ identifier) ∨ ∃ cp' ∈ cps, cp'.identifier = identifier ∧
      cp = { cp' with continuationIndex := cp'.continuationIndex + n } := by
  induction cps with
  | nil => cases h
  | cons cp' cps ih =>
      rw [List.map_cons, List.nodup_cons] at hdistinct
      unfold advance at h
      by_cases hid : cp'.identifier = identifier
      · rw [if_pos hid] at h
        rcases List.mem_cons.1 h with rfl | h
        · exact Or.inr ⟨cp', List.mem_cons_self, hid, rfl⟩
        · refine Or.inl ⟨List.mem_cons_of_mem cp' h, fun heq => hdistinct.1 ?_⟩
          rw [hid, ← heq]
          exact List.mem_map_of_mem h
      · rw [if_neg hid] at h
        rcases List.mem_cons.1 h with rfl | h
        · exact Or.inl ⟨List.mem_cons_self, hid⟩
        · rcases ih hdistinct.2 h with ⟨hmem, hne⟩ | ⟨cp'', hmem, heq⟩
          · exact Or.inl ⟨List.mem_cons_of_mem cp' hmem, hne⟩
          · exact Or.inr ⟨cp'', List.mem_cons_of_mem cp' hmem, heq⟩

end Points

/-! ## What was delivered -/

/-- What an answer says about a continuation point. -/
def part (id : ByteString) : Call × BrowseResult → List ReferenceDescription
  | (.browse _ _ _ identifier, reply) => if identifier = id then reply.references else []
  | (.next _ identifier, reply) => if identifier = id then reply.references else []
  | (.release _, _) => []

/-- The pages of a continuation point put together. -/
def delivered (id : ByteString) (h : List (Call × BrowseResult)) : List ReferenceDescription :=
  h.flatMap (part id)

/-- The description of a browse that was answered with the continuation point. -/
def opening (id : ByteString) : Call × BrowseResult → Option BrowseDescription
  | (.browse _ descr _ _, reply) => if reply.continuationPoint = some id then some descr else none
  | _ => none

/-- The description that a continuation point belongs to. -/
def opened (id : ByteString) (h : List (Call × BrowseResult)) : Option BrowseDescription :=
  h.findSome? (opening id)

/-- The identifier that a browse is given. -/
def Call.fresh : Call → Option ByteString
  | .browse _ _ _ identifier => some identifier
  | _ => none

/-- The identifiers that were given so far. -/
def given (h : List (Call × BrowseResult)) : List ByteString :=
  h.filterMap fun e => e.1.fresh

theorem delivered_append (id : ByteString) (h : List (Call × BrowseResult))
    (e : Call × BrowseResult) : delivered id (h ++ [e]) = delivered id h ++ part id e := by
  simp [delivered]

theorem opened_append (id : ByteString) (h : List (Call × BrowseResult))
    (e : Call × BrowseResult) : opened id (h ++ [e]) = (opened id h).or (opening id e) := by
  simp [opened, List.findSome?_append]

/-- What holds of the answers so far and the session. -/
structure History (ns : NodeStore) (h : List (Call × BrowseResult)) (s : Session) : Prop where
  distinct : (s.continuationPoints.map ContinuationPoint.identifier).Nodup
  points : ∀ cp ∈ s.continuationPoints, cp.maxReferences ≠ 0 ∧
    opened cp.identifier h = some cp.browseDescription ∧
      delivered cp.identifier h = (matching ns cp.browseDescription).take cp.continuationIndex
  finished : ∀ id descr, opened id h = some descr →
    (∀ cp ∈ s.continuationPoints, cp.identifier ≠ id) → delivered id h = matching ns descr
  given : ∀ id descr, opened id h = some descr → id ∈ given h
  nothing : ∀ id, id ∉ View.given h → delivered id h = []

namespace History

variable {ns : NodeStore} {h : List (Call × BrowseResult)} {s : Session}

theorem init (ns : NodeStore) : History ns [] Session.init where
  distinct := List.nodup_nil
  points := by simp [Session.init]
  finished := by simp [opened]
  given := by simp [opened]
  nothing := by simp [delivered]

/-- An answer about no continuation point of the session, which stays as it is. -/
theorem pass (hs : History ns h s) {e : Call × BrowseResult} (hopening : ∀ id, opening id e = none)
    (hpart : ∀ id, part id e ≠ [] → e.1.fresh = some id)
    (hfresh : ∀ id, e.1.fresh = some id → id ∉ View.given h) : History ns (h ++ [e]) s := by
  have hopened : ∀ id, opened id (h ++ [e]) = opened id h := by
    intro id
    rw [opened_append, hopening, Option.or_none]
  have hgiven : ∀ id, id ∈ View.given h → id ∈ View.given (h ++ [e]) := by
    intro id hid
    simp [View.given] at hid ⊢
    exact Or.inl hid
  -- A part that is not empty belongs to an identifier that is new.
  have hsame : ∀ id descr, opened id h = some descr → delivered id (h ++ [e]) = delivered id h := by
    intro id descr hid
    have hempty : part id e = [] := by
      by_contra hne
      exact hfresh id (hpart id hne) (hs.given id descr hid)
    rw [delivered_append, hempty, List.append_nil]
  refine ⟨hs.distinct, ?_, ?_, ?_, ?_⟩
  · intro cp hcp
    rcases hs.points cp hcp with ⟨hmax, hdescr, hpages⟩
    rw [hopened, hsame _ _ hdescr]
    exact ⟨hmax, hdescr, hpages⟩
  · intro id descr hid hgone
    rw [hopened] at hid
    rw [hsame id descr hid]
    exact hs.finished id descr hid hgone
  · intro id descr hid
    rw [hopened] at hid
    exact hgiven id (hs.given id descr hid)
  · intro id hid
    have hempty : part id e = [] := by
      by_contra hne
      refine hid ?_
      simp [View.given, hpart id hne]
    rw [delivered_append, hempty, hs.nothing id fun hmem => hid (hgiven id hmem)]
    rfl

/-- A browse with a new identifier. -/
theorem browse (hs : History ns h s) {fuel : ℕ} {m : Surroundings} {descr : BrowseDescription}
    {maxrefs : UInt32} {identifier : ByteString} {reply : BrowseResult} {s' : Session}
    (hbrowse : View.browse ns fuel m s descr maxrefs identifier = some (reply, s'))
    (hfresh : identifier ∉ View.given h) :
    History ns (h ++ [(.browse m descr maxrefs identifier, reply)]) s' := by
  have hpass : reply.continuationPoint = none →
      History ns (h ++ [(.browse m descr maxrefs identifier, reply)]) s := by
    intro hnone
    refine hs.pass (fun id => by simp [opening, hnone]) (fun id hid => ?_) ?_
    · by_contra hne
      refine hid (if_neg fun heq => hne ?_)
      rw [heq]
      rfl
    · rintro id heq
      cases heq
      exact hfresh
  unfold View.browse at hbrowse
  cases hpage : browsePage ns fuel m descr maxrefs 0 with
  | none =>
      rw [hpage] at hbrowse
      cases hbrowse
  | some page =>
      rw [hpage] at hbrowse
      cases page with
      | stopped statusCode =>
          cases hbrowse
          exact hpass rfl
      | references page done =>
          dsimp only at hbrowse
          split at hbrowse
          · rename_i hfull
            split at hbrowse
            · cases hbrowse
              exact hpass rfl
            · cases hbrowse
              -- The page begins what the new continuation point delivers.
              have htake := (browsePage_eq hpage).1 hfull.1
              rw [List.drop_zero] at htake
              have hpart : ∀ id, part id (.browse m descr maxrefs identifier,
                  ⟨.good, page, some identifier⟩) = if identifier = id then page else [] :=
                fun id => rfl
              have hopening : ∀ id, opening id (.browse m descr maxrefs identifier,
                  ⟨.good, page, some identifier⟩) = if identifier = id then some descr else none := by
                intro id
                simp [opening]
              have hnew : opened identifier h = none := by
                by_contra hne
                rcases Option.ne_none_iff_exists'.1 hne with ⟨descr', hdescr'⟩
                exact hfresh (hs.given identifier descr' hdescr')
              have hfirst : delivered identifier (h ++ [(.browse m descr maxrefs identifier,
                  ⟨.good, page, some identifier⟩)]) = (matching ns descr).take page.length := by
                rw [delivered_append, hs.nothing identifier hfresh, hpart, if_pos rfl,
                  List.nil_append]
                conv_rhs => rw [htake, List.length_take, ← List.take_take, List.take_length]
                exact htake
              have hother : ∀ id, id ≠ identifier →
                  opened id (h ++ [(.browse m descr maxrefs identifier,
                    ⟨.good, page, some identifier⟩)]) = opened id h ∧
                  delivered id (h ++ [(.browse m descr maxrefs identifier,
                    ⟨.good, page, some identifier⟩)]) = delivered id h := by
                intro id hid
                rw [opened_append, delivered_append, hopening, hpart, if_neg hid.symm,
                  if_neg hid.symm, Option.or_none, List.append_nil]
                exact ⟨rfl, rfl⟩
              have hpoint : ∀ cp ∈ s.continuationPoints, cp.identifier ≠ identifier := by
                intro cp hcp heq
                have hdescr := (hs.points cp hcp).2.1
                rw [heq, hnew] at hdescr
                cases hdescr
              refine ⟨?_, ?_, ?_, ?_, ?_⟩
              · rw [List.map_cons, List.nodup_cons]
                refine ⟨?_, hs.distinct⟩
                intro hmem
                rcases List.mem_map.1 hmem with ⟨cp, hcp, heq⟩
                exact hpoint cp hcp heq
              · intro cp hcp
                rcases List.mem_cons.1 hcp with rfl | hcp
                · refine ⟨hfull.1, ?_, hfirst⟩
                  rw [opened_append, hnew, hopening, if_pos rfl]
                  rfl
                · rcases hother _ (hpoint cp hcp) with ⟨hopened, hpages⟩
                  rw [hopened, hpages]
                  exact hs.points cp hcp
              · intro id descr' hid hgone
                have hne : id ≠ identifier := fun heq =>
                  hgone _ List.mem_cons_self heq.symm
                rw [(hother id hne).1] at hid
                rw [(hother id hne).2]
                exact hs.finished id descr' hid fun cp hcp => hgone cp (List.mem_cons_of_mem _ hcp)
              · intro id descr' hid
                by_cases hne : id = identifier
                · subst hne
                  simp [View.given, Call.fresh]
                · rw [(hother id hne).1] at hid
                  have hmem := hs.given id descr' hid
                  simp [View.given] at hmem ⊢
                  exact Or.inl hmem
              · intro id hid
                have hne : id ≠ identifier := by
                  rintro rfl
                  exact hid (by simp [View.given, Call.fresh])
                rw [(hother id hne).2]
                refine hs.nothing id fun hmem => hid ?_
                simp [View.given] at hmem ⊢
                exact Or.inl hmem
          · cases hbrowse
            exact hpass rfl

/-- The next page of a continuation point. -/
theorem next (hs : History ns h s) {fuel : ℕ} {m : Surroundings} {identifier : ByteString}
    {reply : BrowseResult} {s' : Session}
    (hnext : browseNext ns fuel m s identifier = some (reply, s')) :
    History ns (h ++ [(.next m identifier, reply)]) s' := by
  have hopened : ∀ id, opened id (h ++ [(.next m identifier, reply)]) = opened id h := by
    intro id
    rw [opened_append]
    exact Option.or_none
  have hgiven : View.given (h ++ [(.next m identifier, reply)]) = View.given h := by
    simp [View.given, Call.fresh]
  have hpart : ∀ id, part id (.next m identifier, reply) =
      if identifier = id then reply.references else [] := fun _ => rfl
  have hpass : reply.references = [] → History ns (h ++ [(.next m identifier, reply)]) s := by
    intro hempty
    refine hs.pass (fun _ => rfl) (fun id hid => absurd ?_ hid) (fun id heq => by cases heq)
    rw [hpart, hempty, ite_self]
  have hother : ∀ id, id ≠ identifier →
      delivered id (h ++ [(.next m identifier, reply)]) = delivered id h := by
    intro id hid
    rw [delivered_append, hpart, if_neg hid.symm, List.append_nil]
  unfold browseNext at hnext
  cases hfind : s.continuationPoints.find? fun cp => cp.identifier = identifier with
  | none =>
      rw [hfind] at hnext
      cases hnext
      exact hpass rfl
  | some cp =>
      have hcp := List.mem_of_find?_eq_some hfind
      have hid : cp.identifier = identifier := by simpa using List.find?_some hfind
      rcases hs.points cp hcp with ⟨hmax, hdescr, hpages⟩
      rw [hid] at hdescr hpages
      have hnothing : ∀ id, id ∉ View.given (h ++ [(.next m identifier, reply)]) →
          delivered id (h ++ [(.next m identifier, reply)]) = [] := by
        intro id hunused
        rw [hgiven] at hunused
        have hne : id ≠ identifier := by
          rintro rfl
          exact hunused (hs.given id _ hdescr)
        rw [hother id hne]
        exact hs.nothing id hunused
      have hgiven' : ∀ id descr, opened id (h ++ [(.next m identifier, reply)]) = some descr →
          id ∈ View.given (h ++ [(.next m identifier, reply)]) := by
        intro id descr hopen
        rw [hopened] at hopen
        rw [hgiven]
        exact hs.given id descr hopen
      rw [hfind] at hnext
      dsimp only at hnext
      cases hpage : browsePage ns fuel m cp.browseDescription cp.maxReferences
          cp.continuationIndex with
      | none =>
          rw [hpage] at hnext
          cases hnext
      | some page =>
          rw [hpage] at hnext
          cases page with
          | stopped statusCode =>
              cases hnext
              exact hpass rfl
          | references page done =>
              rcases browsePage_eq hpage with ⟨htake, _, hdone⟩
              have htake := htake hmax
              cases done with
              | true =>
                  cases hnext
                  refine ⟨hs.distinct.sublist (List.eraseP_sublist.map _), ?_, ?_, hgiven',
                    hnothing⟩
                  · intro cp' hcp'
                    rcases mem_erase hs.distinct hcp' with ⟨hmem, hne⟩
                    rw [hopened, hother _ hne]
                    exact hs.points cp' hmem
                  · intro id descr hopen hgone
                    rw [hopened] at hopen
                    by_cases hne : id = identifier
                    · subst hne
                      rw [hdescr] at hopen
                      cases hopen
                      rw [delivered_append, hpages, hpart, if_pos rfl]
                      dsimp only
                      rw [hdone rfl, List.take_append_drop]
                    · rw [hother id hne]
                      refine hs.finished id descr hopen fun cp' hmem heq => ?_
                      refine hgone cp' ?_ heq
                      rw [← heq] at hne
                      exact (List.mem_eraseP_of_neg (by simpa using hne)).2 hmem
              | false =>
                  cases hnext
                  refine ⟨by rw [map_advance]; exact hs.distinct, ?_, ?_, hgiven', hnothing⟩
                  · intro cp' hcp'
                    rcases mem_advance hs.distinct hcp' with ⟨hmem, hne⟩ | ⟨cp'', hmem, hid', rfl⟩
                    · rw [hopened, hother _ hne]
                      exact hs.points cp' hmem
                    · have heq : cp'' = cp := List.inj_on_of_nodup_map hs.distinct hmem hcp
                        (hid'.trans hid.symm)
                      subst heq
                      dsimp only
                      rw [hopened, hid]
                      refine ⟨hmax, hdescr, ?_⟩
                      rw [delivered_append, hpages, hpart, if_pos rfl, List.take_add]
                      dsimp only
                      congr 1
                      conv_rhs => rw [htake, List.length_take, ← List.take_take, List.take_length]
                      exact htake
                  · intro id descr hopen hgone
                    have hgone' : ∀ cp' ∈ s.continuationPoints, cp'.identifier ≠ id := by
                      intro cp' hmem heq
                      have hmap : id ∈ (advance identifier page.length s.continuationPoints).map
                          ContinuationPoint.identifier := by
                        rw [map_advance, ← heq]
                        exact List.mem_map_of_mem hmem
                      rcases List.mem_map.1 hmap with ⟨cp'', hcp'', heq'⟩
                      exact hgone cp'' hcp'' heq'
                    rw [hopened] at hopen
                    rw [hother id fun heq => hgone' cp hcp (hid.trans heq.symm)]
                    exact hs.finished id descr hopen hgone'

end History

/-! ## Runs -/

theorem given_append (h : List (Call × BrowseResult)) (e : Call × BrowseResult) :
    given (h ++ [e]) = given h ++ e.1.fresh.toList := by
  cases hfresh : e.1.fresh with
  | none => simp [given, hfresh]
  | some id => simp [given, hfresh]

/-- The calls of a session keep the history, unless a continuation point is released. -/
theorem answers_history {ns : NodeStore} {fuel : ℕ} {h₀ h : List (Call × BrowseResult)}
    {s s' : Session} {calls : List Call} (hs : History ns h₀ s)
    (hrun : answers ns fuel s calls = some (h, s'))
    (hkept : ∀ call ∈ calls, ∀ id, call ≠ .release id)
    (hfresh : (given h₀ ++ calls.filterMap Call.fresh).Nodup) : History ns (h₀ ++ h) s' := by
  induction calls generalizing h₀ h s with
  | nil =>
      cases hrun
      rwa [List.append_nil]
  | cons call calls ih =>
      unfold answers at hrun
      cases hanswer : answer ns fuel s call with
      | none =>
          rw [hanswer] at hrun
          cases hrun
      | some r =>
          rcases r with ⟨reply, s₁⟩
          rw [hanswer] at hrun
          rcases Option.map_eq_some_iff.1 hrun with ⟨⟨h₁, s₂⟩, hrest, heq⟩
          cases heq
          have hstep : History ns (h₀ ++ [(call, reply)]) s₁ := by
            cases call with
            | browse m descr maxrefs identifier =>
                refine hs.browse hanswer fun hmem => ?_
                rw [List.filterMap_cons_some (by rfl)] at hfresh
                exact List.disjoint_of_nodup_append hfresh hmem List.mem_cons_self
            | next m identifier => exact hs.next hanswer
            | release identifier => exact absurd rfl (hkept _ List.mem_cons_self identifier)
          have hfresh' : (given (h₀ ++ [(call, reply)]) ++ calls.filterMap Call.fresh).Nodup := by
            rw [given_append, List.append_assoc]
            cases hid : call.fresh with
            | none => simpa [hid] using hfresh
            | some id => simpa [hid] using hfresh
          have hlater := ih hstep hrest (fun call' hmem => hkept call' (List.mem_cons_of_mem _ hmem))
            hfresh'
          rwa [List.append_assoc] at hlater

/-- **Pages.**  Whatever browses and next pages a client asks for in whatever order, as long as the
identifiers of the browses are distinct, with memory granted or denied for the arrays and the points,
the pages of a continuation point put together are the beginning of all the references that match its
description, each once and in order, and once the session has no such point any more they are all.
These are the references that are meant, unless one that only reads as `HasSubtype` leads out of the
hierarchy of their types. -/
theorem pages_exact (ns : NodeStore) (fuel : ℕ) (calls : List Call)
    (hkept : ∀ call ∈ calls, ∀ id, call ≠ .release id)
    (hfresh : (calls.filterMap Call.fresh).Nodup) {h : List (Call × BrowseResult)} {s : Session}
    (hrun : answers ns fuel Session.init calls = some (h, s)) {id : ByteString}
    {descr : BrowseDescription} (hopened : opened id h = some descr) :
    delivered id h <+: matching ns descr ∧
      ((∀ cp ∈ s.continuationPoints, cp.identifier ≠ id) → delivered id h = matching ns descr) ∧
        ((descr.includeSubtypes = true → Proper ns descr.referenceTypeId) →
          matching ns descr = intended ns descr) := by
  have hs := answers_history (.init ns) hrun hkept hfresh
  rw [List.nil_append] at hs
  refine ⟨?_, hs.finished id descr hopened, matching_eq_intended⟩
  by_cases hgone : ∀ cp ∈ s.continuationPoints, cp.identifier ≠ id
  · have hall := hs.finished id descr hopened hgone
    exact ⟨[], by rw [List.append_nil, hall]⟩
  · push Not at hgone
    rcases hgone with ⟨cp, hcp, rfl⟩
    rcases hs.points cp hcp with ⟨_, hdescr, hpages⟩
    rw [hopened] at hdescr
    cases hdescr
    rw [hpages]
    exact List.take_prefix _ _

/-! ### Three references, one at a time -/

/-- A folder with three objects. -/
def folder : NodeStore :=
  let object (n : UInt32) (references : List ReferenceNode) : Node :=
    ⟨NodeId.numeric 1 n, ⟨1, []⟩, ⟨[], []⟩, references, .object⟩
  (((NodeStore.empty.put (object 2 [])).put (object 3 [])).put (object 4 [])).put
    (object 1 [⟨organizes, false, NodeId.numeric 1 2⟩, ⟨organizes, false, NodeId.numeric 1 3⟩,
      ⟨organizes, false, NodeId.numeric 1 4⟩])

/-- All forward references of the folder. -/
def folderDescription : BrowseDescription :=
  ⟨NodeId.numeric 1 1, 0, .null, false, 0, 63⟩

/-- Memory for everything. -/
def ample : Surroundings :=
  ⟨fun _ => true, true, true⟩

/-- Two browses of the folder, and next pages of the first one. -/
def pagedCalls : List Call :=
  [.browse ample folderDescription 1 [1], .next ample [1], .browse ample folderDescription 2 [2],
    .next ample [1]]

theorem pages_exact_folder : ∃ h s, answers folder 1 Session.init pagedCalls = some (h, s) ∧
    opened [1] h = some folderDescription ∧
      delivered [1] h <+: matching folder folderDescription ∧
        ((∀ cp ∈ s.continuationPoints, cp.identifier ≠ [1]) →
          delivered [1] h = matching folder folderDescription) ∧
          ((folderDescription.includeSubtypes = true →
              Proper folder folderDescription.referenceTypeId) →
            matching folder folderDescription = intended folder folderDescription) := by
  have hrun : (answers folder 1 Session.init pagedCalls).map (fun r => opened [1] r.1) =
      some (some folderDescription) := by
    decide +kernel
  rcases Option.map_eq_some_iff.1 hrun with ⟨⟨h, s⟩, hrun, hopened⟩
  exact ⟨h, s, hrun, hopened, pages_exact folder 1 pagedCalls (by simp [pagedCalls])
    (by decide) hrun hopened⟩

end View

end ForteOpcUa
