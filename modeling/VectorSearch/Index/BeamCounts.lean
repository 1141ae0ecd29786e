import Mathlib.Data.Set.Card
import VectorSearch.Index.Exact
import VectorSearch.Index.FilteredBeam

namespace VectorSearch

/-!
# How many nodes a beam search returns

While a beam has room, nothing it discovers is turned away: every discovered
node waits to be expanded and, if it is allowed, is a result.  So neither loop
ends before the beam is full or everything reachable was visited, and the number
of results is the beam width or the number of nodes there are.  A full beam
stays full.

With room in the beam no candidate is farther than the farthest result, so the
test that ends an unfiltered loop fails.  Where every node is allowed, both loops
therefore make the same steps.
-/

open Stateful

variable {F D G : Type} [LinearOrder D]

namespace HNSW

/-! ## The results of one push -/

/-- The item is a result, or the beam is full of items no farther than it. -/
def Anchored (ef : Nat) (start : D × Nat) (results : List (D × Nat)) : Prop :=
  start ∈ results ∨ (results.length = ef ∧ ∀ item ∈ results, item.1 ≤ start.1)

/-- The top of the results is no nearer than any other. -/
theorem top_farthest {results : List (D × Nat)} {worst : D × Nat} (ordered : Heapq.Ordered farther results)
    (isWorst : results[0]? = some worst) : ∀ item ∈ results, item.1 ≤ worst.1 := by
  intro item member
  rcases List.getElem?_of_mem member with ⟨place, atPlace⟩
  have near := ordered.first farther_negTrans farther_irrefl isWorst place item atPlace
  apply not_lt.mp
  intro far
  rw [farther_eq_true.mpr (Or.inl far)] at near
  cases near

/-- A push with room keeps everything. -/
theorem pushResult_roomy {ef : Nat} {results kept : List (D × Nat)} {item : D × Nat}
    (room : results.length < ef) (pushed : pushResult ef results item = .ok kept) :
    kept = Heapq.heappush farther results item := by
  have perm := Heapq.heappush_perm farther results item
  unfold pushResult at pushed
  rw [if_neg (by rw [perm.length_eq, List.length_cons]; omega)] at pushed
  exact (Except.ok.inj pushed).symm

/-- A push into a full beam drops the farthest item. -/
theorem pushResult_full {ef : Nat} {results kept : List (D × Nat)} {item : D × Nat}
    (full : results.length = ef) (ordered : Heapq.Ordered farther results)
    (pushed : pushResult ef results item = .ok kept) :
    Heapq.Ordered farther kept ∧ ∃ top, (item :: results).Perm (top :: kept) ∧ ∀ other ∈
      kept, other.1 ≤ top.1 := by
  have perm := Heapq.heappush_perm farther results item
  have order := Heapq.heappush_ordered farther_asymm farther_negTrans item ordered
  unfold pushResult at pushed
  rw [if_pos (by rw [perm.length_eq, List.length_cons]; omega)] at pushed
  split at pushed
  · cases pushed
  · rename_i top rest popped
    cases pushed
    have parts := Heapq.heappop_perm popped
    refine ⟨Heapq.heappop_ordered farther_asymm farther_negTrans order popped, top, perm.symm.trans parts, ?_⟩
    intro other member
    exact top_farthest order (Heapq.heappop_first popped) other
      (parts.symm.subset (List.mem_cons_of_mem top member))

/-! ## The inner loop -/

/-- What the inner loop does to a beam that is not too long. -/
structure Beam.Grows (ef : Nat) (allowed : Nat → Except Error Bool) (found : List (Nat × D))
    (beam next : Beam D) : Prop where
  bounded : next.results.length ≤ ef
  ordered : Heapq.Ordered farther next.results
  more : beam.results.length ≤ next.results.length
  fromFound : ∀ item ∈ next.candidates, item ∈ scored found ++ beam.candidates
  queued : next.results.length < ef → ∀ item ∈ scored found ++ beam.candidates, item ∈ next.candidates
  kept : next.results.length < ef → ∀ item ∈ beam.results, item ∈ next.results
  taken : next.results.length < ef → ∀ item ∈ scored found, allowed item.2 = .ok true → item ∈ next.results
  anchored : ∀ start, Anchored ef start beam.results → Anchored ef start next.results

theorem Beam.Grows.start {ef : Nat} (allowed : Nat → Except Error Bool) {beam : Beam D}
    (bounded : beam.results.length ≤ ef) (ordered : Heapq.Ordered farther beam.results) :
    beam.Grows ef allowed [] beam where
  bounded := bounded
  ordered := ordered
  more := Nat.le_refl _
  fromFound := fun _ member => member
  queued := fun _ _ member => member
  kept := fun _ _ member => member
  taken := fun _ _ impossible => nomatch impossible
  anchored := fun _ holds => holds

theorem Beam.Grows.cons {ef : Nat} {allowed : Nat → Except Error Bool} {neighbor : Nat} {d : D}
    {found : List (Nat × D)} {beam middle next : Beam D} (first : beam.Grows ef allowed [(neighbor, d)] middle)
    (rest : middle.Grows ef allowed found next) : beam.Grows ef allowed ((neighbor, d) :: found) next := by
  have before : next.results.length < ef → middle.results.length < ef := fun room =>
    Nat.lt_of_le_of_lt rest.more room
  constructor
  · exact rest.bounded
  · exact rest.ordered
  · exact Nat.le_trans first.more rest.more
  · intro item member
    apply (scored_cons_append neighbor d found beam.candidates).subset
    rcases List.mem_append.mp (rest.fromFound item member) with later | now
    · exact List.mem_append_left _ later
    · exact List.mem_append_right _ (first.fromFound item now)
  · intro room item member
    apply rest.queued room
    rcases List.mem_append.mp ((scored_cons_append neighbor d found beam.candidates).symm.subset member) with
      later | now
    · exact List.mem_append_left _ later
    · exact List.mem_append_right _ (first.queued (before room) item now)
  · exact fun room item member => rest.kept room item (first.kept (before room) item member)
  · intro room item member permits
    rcases List.mem_cons.mp member with now | later
    · rw [now] at permits ⊢
      exact rest.kept room _ (first.taken (before room) _ (List.mem_singleton_self _) permits)
    · exact rest.taken room item later permits
  · exact fun start holds => rest.anchored start (first.anchored start holds)

/-- A neighbour that is let in. -/
theorem push_grows {ef : Nat} {allowed : Nat → Except Error Bool} {beam : Beam D} {d : D} {neighbor : Nat}
    {results : List (D × Nat)} (bounded : beam.results.length ≤ ef)
    (ordered : Heapq.Ordered farther beam.results)
    (near : beam.results.length = ef → ∃ worst ∈ beam.results, d < worst.1)
    (pushed : pushResult ef beam.results (d, neighbor) = .ok results) :
    beam.Grows ef allowed [(neighbor, d)]
      { beam with candidates := Heapq.heappush closer beam.candidates (d, neighbor), results } := by
  have queue := Heapq.heappush_perm closer beam.candidates (d, neighbor)
  rcases Nat.lt_or_ge beam.results.length ef with room | filled
  · have perm := Heapq.heappush_perm farther beam.results (d, neighbor)
    rw [pushResult_roomy room pushed]
    have count := perm.length_eq
    rw [List.length_cons] at count
    constructor
    · dsimp only
      omega
    · exact Heapq.heappush_ordered farther_asymm farther_negTrans _ ordered
    · dsimp only
      omega
    · exact fun item member => queue.subset member
    · exact fun _ item member => queue.symm.subset member
    · exact fun _ item member => perm.symm.subset (List.mem_cons_of_mem _ member)
    · intro _ item member _
      rw [List.mem_singleton.mp member]
      exact perm.symm.subset List.mem_cons_self
    · rintro start (old | ⟨full, _⟩)
      · exact .inl (perm.symm.subset (List.mem_cons_of_mem _ old))
      · omega
  · have full : beam.results.length = ef := Nat.le_antisymm bounded filled
    rcases pushResult_full full ordered pushed with ⟨order, top, parts, farthest⟩
    have count := parts.length_eq
    rw [List.length_cons, List.length_cons] at count
    have same : results.length = ef := by omega
    have noRoom : ¬ results.length < ef := by omega
    constructor
    · exact Nat.le_of_eq same
    · exact order
    · exact Nat.le_of_eq (full.trans same.symm)
    · exact fun item member => queue.subset member
    · exact fun room => absurd room noRoom
    · exact fun room => absurd room noRoom
    · exact fun room => absurd room noRoom
    · rintro start (old | ⟨_, none⟩)
      · rcases List.mem_cons.mp (parts.subset (List.mem_cons_of_mem _ old)) with isTop | still
        · exact .inr ⟨same, fun item member => isTop ▸ farthest item member⟩
        · exact .inl still
      · refine .inr ⟨same, ?_⟩
        intro item member
        rcases near full with ⟨worst, isWorst, nearer⟩
        rcases List.mem_cons.mp (parts.symm.subset (List.mem_cons_of_mem top member)) with isNew | old
        · rw [isNew]
          exact le_of_lt (lt_of_lt_of_le nearer (none worst isWorst))
        · exact none item old

/-- A neighbour that is not allowed is a road only. -/
theorem road_grows {ef : Nat} {allowed : Nat → Except Error Bool} {beam : Beam D} {d : D} {neighbor : Nat}
    (bounded : beam.results.length ≤ ef) (ordered : Heapq.Ordered farther beam.results)
    (forbidden : allowed neighbor = .ok false) :
    beam.Grows ef allowed [(neighbor, d)]
      { beam with candidates := Heapq.heappush closer beam.candidates (d, neighbor) } where
  bounded := bounded
  ordered := ordered
  more := Nat.le_refl _
  fromFound := fun _ member => (Heapq.heappush_perm closer beam.candidates (d, neighbor)).subset member
  queued := fun _ _ member => (Heapq.heappush_perm closer beam.candidates (d, neighbor)).symm.subset member
  kept := fun _ _ member => member
  taken := by
    intro _ item member permits
    rw [List.mem_singleton.mp member] at permits
    exact nomatch forbidden.symm.trans permits
  anchored := fun _ holds => holds

/-- Only a full beam turns a neighbour away. -/
theorem turned_grows {ef : Nat} {allowed : Nat → Except Error Bool} {beam : Beam D}
    (bounded : beam.results.length ≤ ef) (ordered : Heapq.Ordered farther beam.results)
    (full : ¬ beam.results.length < ef) (found : List (Nat × D)) : beam.Grows ef allowed found beam where
  bounded := bounded
  ordered := ordered
  more := Nat.le_refl _
  fromFound := fun _ member => List.mem_append_right _ member
  queued := fun room => absurd room full
  kept := fun _ _ member => member
  taken := fun room => absurd room full
  anchored := fun _ holds => holds

theorem consider_grows {ef : Nat} {allowed : Nat → Except Error Bool} {ok : Bool} {beam next : Beam D} {d : D}
    {neighbor : Nat} (bounded : beam.results.length ≤ ef) (ordered : Heapq.Ordered farther beam.results)
    (permits : allowed neighbor = .ok ok) (considered : consider ef ok beam d neighbor = .ok next) :
    beam.Grows ef allowed [(neighbor, d)] next := by
  rcases gave_bind considered with ⟨enters, admitted, rest⟩
  unfold admits at admitted
  cases enters with
  | false =>
      cases rest
      split at admitted
      · cases admitted
      · rename_i full
        exact turned_grows bounded ordered full _
  | true =>
      rcases gave_bind rest with ⟨results, pushed, isNext⟩
      cases isNext
      cases ok with
      | false =>
          cases pushed
          exact road_grows bounded ordered permits
      | true =>
          apply push_grows bounded ordered _ pushed
          intro full
          rw [if_neg (by omega)] at admitted
          split at admitted
          · cases admitted
          · rename_i worst isWorst
            exact ⟨worst, List.mem_of_mem_head? isWorst, of_decide_eq_true (Except.ok.inj admitted)⟩

theorem considerAll_grows {ef : Nat} {allowed : Nat → Except Error Bool} (found : List (Nat × D))
    {beam next : Beam D} (bounded : beam.results.length ≤ ef) (ordered : Heapq.Ordered farther beam.results)
    (considered : considerAll ef allowed found beam = .ok next) : beam.Grows ef allowed found next := by
  induction found generalizing beam with
  | nil =>
      cases considered
      exact .start allowed bounded ordered
  | cons head rest inductionHypothesis =>
      rcases head with ⟨neighbor, d⟩
      rcases gave_bind considered with ⟨ok, permits, considers⟩
      rcases gave_bind considers with ⟨middle, one, later⟩
      have first := consider_grows bounded ordered permits one
      exact first.cons (inductionHypothesis first.bounded first.ordered later)

/-! ## One round -/

/-- What every beam of a search satisfies: as long as there is room, every
allowed node that was visited is a result, and every visited node waits in the
queue or has been expanded. -/
structure Beam.Roomy (adjacency : Layer) (ef : Nat) (allowed : Nat → Except Error Bool) (start : D × Nat)
    (beam : Beam D) : Prop where
  started : start.2 ∈ beam.visited
  reached : ∀ node ∈ beam.visited, adjacency.Reach start.2 node
  queued : ∀ item ∈ beam.candidates, item.2 ∈ beam.visited
  bounded : beam.results.length ≤ ef
  ordered : Heapq.Ordered farther beam.results
  all : beam.results.length < ef → ∀ node ∈ beam.visited, allowed node = .ok true → node ∈
    beam.results.map Prod.snd
  waiting : beam.results.length < ef → ∀ item ∈ beam.candidates, allowed item.2 = .ok true → item ∈ beam.results
  closed : beam.results.length < ef → ∀ node ∈ beam.visited, (∃ item ∈ beam.candidates, item.2 = node) ∨
    ∀ other, adjacency.Link node other → other ∈ beam.visited
  anchored : allowed start.2 = .ok true → Anchored ef start beam.results

theorem Beam.Roomy.round {adjacency : Layer} {ef : Nat} {allowed : Nat → Except Error Bool}
    {start item : D × Nat}
    {rest : List (D × Nat)} {links : List Nat} {found : List (Nat × D)} {beam next : Beam D}
    (roomy : beam.Roomy adjacency ef allowed start) (popped : beam.candidates.Perm (item :: rest))
    (linked : adjacency.get? item.2 = some links) (isFresh : found.map Prod.fst = fresh beam links)
    (considered : considerAll ef allowed found (beam.opened rest found) = .ok next) :
    next.Roomy adjacency ef allowed start := by
  have grows : (beam.opened rest found).Grows ef allowed found next :=
    considerAll_grows found roomy.bounded roomy.ordered considered
  have adds := considerAll_adds found considered
  have isVisited : next.visited = beam.visited ++ found.map Prod.fst := adds.visited
  have before : next.results.length < ef → beam.results.length < ef := fun room =>
    Nat.lt_of_le_of_lt grows.more room
  have fromFound : ∀ pair ∈ scored found, pair.2 ∈ found.map Prod.fst := by
    intro pair member
    rw [← scored_snd]
    exact List.mem_map_of_mem member
  have expands : item.2 ∈ beam.visited := roomy.queued item (popped.symm.subset List.mem_cons_self)
  constructor
  · rw [isVisited]
    exact List.mem_append_left _ roomy.started
  · intro node member
    rw [isVisited, isFresh] at member
    rcases List.mem_append.mp member with old | new
    · exact roomy.reached node old
    · exact (roomy.reached item.2 expands).tail ⟨links, linked, (mem_fresh.mp new).1⟩
  · intro pair member
    rw [isVisited]
    rcases List.mem_append.mp (grows.fromFound pair member) with new | old
    · exact List.mem_append_right _ (fromFound pair new)
    · exact List.mem_append_left _ (roomy.queued pair (popped.symm.subset (List.mem_cons_of_mem item old)))
  · exact grows.bounded
  · exact grows.ordered
  · intro room node member permits
    rw [isVisited] at member
    rcases List.mem_append.mp member with old | new
    · rcases List.mem_map.mp (roomy.all (before room) node old permits) with ⟨pair, isResult, same⟩
      exact List.mem_map.mpr ⟨pair, grows.kept room pair isResult, same⟩
    · rw [← scored_snd] at new
      rcases List.mem_map.mp new with ⟨pair, isFound, same⟩
      exact List.mem_map.mpr ⟨pair, grows.taken room pair isFound (same ▸ permits), same⟩
  · intro room pair member permits
    rcases List.mem_append.mp (grows.fromFound pair member) with new | old
    · exact grows.taken room pair new permits
    · exact grows.kept room pair
        (roomy.waiting (before room) pair (popped.symm.subset (List.mem_cons_of_mem item old)) permits)
  · intro room node member
    rw [isVisited] at member ⊢
    rcases List.mem_append.mp member with old | new
    · by_cases expanded : node = item.2
      · -- all links of the expanded node are visited now
        right
        rintro other ⟨stored, foundLinks, memberLinks⟩
        rw [expanded, linked] at foundLinks
        cases foundLinks
        by_cases seen : other ∈ beam.visited
        · exact List.mem_append_left _ seen
        · apply List.mem_append_right
          rw [isFresh]
          exact mem_fresh.mpr ⟨memberLinks, seen⟩
      · rcases roomy.closed (before room) node old with ⟨pair, waiting, same⟩ | closed
        · left
          rcases List.mem_cons.mp (popped.subset waiting) with isItem | later
          · rw [isItem] at same
            exact absurd same.symm expanded
          · exact ⟨pair, grows.queued room pair (List.mem_append_right _ later), same⟩
        · exact .inr fun other link => List.mem_append_left _ (closed other link)
    · left
      rw [← scored_snd] at new
      rcases List.mem_map.mp new with ⟨pair, isFound, same⟩
      exact ⟨pair, grows.queued room pair (List.mem_append_left _ isFound), same⟩
  · exact fun permits => grows.anchored start (roomy.anchored permits)

/-- A round that finds nothing new. -/
theorem Beam.Roomy.spent {adjacency : Layer} {ef : Nat} {allowed : Nat → Except Error Bool}
    {start item : D × Nat}
    {rest : List (D × Nat)} {links : List Nat} {beam : Beam D} (roomy : beam.Roomy adjacency ef allowed start)
    (popped : beam.candidates.Perm (item :: rest)) (linked : adjacency.get? item.2 = some links)
    (nothing : fresh beam links = []) : Beam.Roomy adjacency ef allowed start
    { beam with candidates := rest } := by
  have isFresh : ([] : List (Nat × D)).map Prod.fst = fresh beam links := nothing.symm
  apply roomy.round popped linked isFresh
  simp only [Beam.opened, List.map_nil, List.append_nil]
  rfl

/-! ## The loop -/

/-- The test of a filtered loop: `len(results) >= ef`. -/
abbrev filled (ef : Nat) : Beam D → Bool := fun beam => decide (ef ≤ beam.results.length)

/-- What a finished search holds. -/
structure Beam.Counted (adjacency : Layer) (ef : Nat) (allowed : Nat → Except Error Bool) (start : D × Nat)
    (final : Beam D) : Prop where
  reached : ∀ node ∈ final.visited, adjacency.Reach start.2 node
  bounded : final.results.length ≤ ef
  all : final.results.length < ef → ∀ node, adjacency.Reach start.2 node → allowed node = .ok true →
    node ∈ final.results.map Prod.snd
  anchored : allowed start.2 = .ok true → Anchored ef start final.results

/-- When nothing is left to expand and there is room, everything reachable was visited. -/
theorem Beam.Roomy.visits {adjacency : Layer} {ef node : Nat} {allowed : Nat → Except Error Bool}
    {start : D × Nat} {beam : Beam D} (roomy : beam.Roomy adjacency ef allowed start)
    (room : beam.results.length < ef) (done : beam.candidates = []) (reach : adjacency.Reach start.2 node) :
    node ∈ beam.visited := by
  induction reach with
  | refl => exact roomy.started
  | tail _ link inductionHypothesis =>
      rcases roomy.closed room _ inductionHypothesis with ⟨item, waiting, _⟩ | closed
      · rw [done] at waiting
        cases waiting
      · exact closed _ link

section Loop

variable (np : Numpy F D G) {data : List (List F)} {adjacency : Layer} {query : List F}

theorem beamLoop_counted {ef : Nat} {allowed : Nat → Except Error Bool} {start : D × Nat} (fuel : Nat)
    {beam final : Beam D} (roomy : beam.Roomy adjacency ef allowed start)
    (ran : beamLoop np data adjacency query ef (filled ef) allowed fuel beam = .ok final) :
    final.Counted adjacency ef allowed start := by
  induction fuel generalizing beam with
  | zero => cases ran
  | succ fuel inductionHypothesis =>
      unfold beamLoop at ran
      split at ran
      · rename_i empty
        cases ran
        refine ⟨roomy.reached, roomy.bounded, fun room node reach permits => ?_, roomy.anchored⟩
        exact roomy.all room node (roomy.visits room (Heapq.heappop_eq_none empty) reach) permits
      · rename_i distC c rest popped
        have perm := Heapq.heappop_perm popped
        rcases gave_bind ran with ⟨far, tested, goes⟩
        cases far with
        | true =>
            cases goes
            have full : ef ≤ beam.results.length := by
              by_contra room
              unfold exhausted at tested
              rw [if_neg (by simpa [filled] using room)] at tested
              cases tested
            exact ⟨roomy.reached, roomy.bounded, fun room => absurd room (Nat.not_lt.mpr full), roomy.anchored⟩
        | false =>
            rcases gave_bind goes with ⟨links, looked, later⟩
            have linked := neighborsOf_ok looked
            dsimp only at later
            split at later
            · rename_i nothing
              exact inductionHypothesis (roomy.spent perm linked nothing) later
            · rcases gave_bind later with ⟨dists, given, considers⟩
              rcases gave_bind considers with ⟨next, considered, ends⟩
              have ids : ((fresh beam links).zip dists).map Prod.fst = fresh beam links :=
                List.map_fst_zip (Nat.le_of_eq (distancesTo_length np given).symm)
              have opened : considerAll ef allowed ((fresh beam links).zip dists)
                  (beam.opened rest ((fresh beam links).zip dists)) = .ok next := by
                unfold Beam.opened
                rw [ids]
                exact considered
              exact inductionHypothesis (roomy.round perm linked ids opened) ends

theorem considerAll_allowed {ef : Nat} {allowed : Nat → Except Error Bool} (found : List (Nat × D))
    (permits : ∀ item ∈ found, allowed item.1 = .ok true) (beam : Beam D) :
    considerAll ef allowed found beam = considerAll ef (fun _ => .ok true) found beam := by
  induction found generalizing beam with
  | nil => rfl
  | cons head rest inductionHypothesis =>
      rcases head with ⟨neighbor, d⟩
      unfold considerAll
      rw [permits (neighbor, d) List.mem_cons_self]
      have later := inductionHypothesis fun item member => permits item (List.mem_cons_of_mem _ member)
      simp only [later]

/-- With room in the beam no candidate is farther than the farthest result. -/
theorem Beam.Roomy.exhausted_eq {ef : Nat} {start : D × Nat} {beam : Beam D}
    (roomy : beam.Roomy adjacency ef (fun _ => .ok true) start) {distC : D} {c : Nat}
    (member : (distC, c) ∈ beam.candidates) :
    exhausted (fun _ => true) beam distC = exhausted (filled ef) beam distC := by
  unfold exhausted
  rw [if_pos rfl]
  by_cases full : ef ≤ beam.results.length
  · rw [if_pos (decide_eq_true full)]
  · rw [if_neg (by simpa [filled] using full)]
    have isResult := roomy.waiting (Nat.not_le.mp full) _ member rfl
    have nonempty : 0 < beam.results.length := List.length_pos_of_mem isResult
    have isWorst : beam.results[0]? = some beam.results[0] := List.getElem?_eq_getElem nonempty
    have near := top_farthest roomy.ordered isWorst _ isResult
    rw [List.head?_eq_getElem?, isWorst]
    dsimp only
    rw [decide_eq_false (not_lt.mpr near)]

/-- Where every node is allowed, both loops make the same steps. -/
theorem beamLoop_lockstep {ef : Nat} {allowed : Nat → Except Error Bool} {start : D × Nat}
    (permits : ∀ node other, adjacency.Link node other → allowed other = .ok true) (fuel : Nat) {beam : Beam D}
    (roomy : beam.Roomy adjacency ef (fun _ => .ok true) start) :
    beamLoop np data adjacency query ef (fun _ => true) (fun _ => .ok true) fuel beam =
      beamLoop np data adjacency query ef (filled ef) allowed fuel beam := by
  induction fuel generalizing beam with
  | zero => rfl
  | succ fuel inductionHypothesis =>
      unfold beamLoop
      cases popped : Heapq.heappop closer beam.candidates with
      | none => rfl
      | some pair =>
          rcases pair with ⟨⟨distC, c⟩, rest⟩
          have perm := Heapq.heappop_perm popped
          dsimp only
          rw [roomy.exhausted_eq (perm.symm.subset List.mem_cons_self)]
          cases exhausted (filled ef) beam distC with
          | error error =>
              change Except.error error = Except.error error
              rfl
          | ok far =>
              cases far with
              | true =>
                  change Except.ok _ = Except.ok _
                  rfl
              | false =>
                  change (neighborsOf adjacency c >>= _) = (neighborsOf adjacency c >>= _)
                  cases looked : neighborsOf adjacency c with
                  | error error => rfl
                  | ok links =>
                      have linked := neighborsOf_ok looked
                      change (if fresh beam links = [] then _ else _) = (if fresh beam links = [] then _ else _)
                      by_cases nothing : fresh beam links = []
                      · rw [if_pos nothing, if_pos nothing]
                        exact inductionHypothesis (roomy.spent perm linked nothing)
                      · rw [if_neg nothing, if_neg nothing]
                        change (distancesTo np data query (fresh beam links) >>= _) =
                          (distancesTo np data query (fresh beam links) >>= _)
                        cases given : distancesTo np data query (fresh beam links) with
                        | error error => rfl
                        | ok dists =>
                            have ids : ((fresh beam links).zip dists).map Prod.fst = fresh beam links :=
                              List.map_fst_zip (Nat.le_of_eq (distancesTo_length np given).symm)
                            have permitsFresh : ∀ item ∈ (fresh beam links).zip dists,
                                allowed item.1 = .ok true := by
                              intro item member
                              have isFresh := (List.of_mem_zip member).1
                              exact permits c item.1 ⟨links, linked, (mem_fresh.mp isFresh).1⟩
                            have same : considerAll ef allowed ((fresh beam links).zip dists)
                                ⟨beam.visited ++ fresh beam links, rest, beam.results⟩ = _ :=
                              considerAll_allowed _ permitsFresh _
                            change (considerAll ef (fun _ => .ok true) ((fresh beam links).zip dists)
                                ⟨beam.visited ++ fresh beam links, rest, beam.results⟩ >>= _) =
                              (considerAll ef allowed ((fresh beam links).zip dists)
                                ⟨beam.visited ++ fresh beam links, rest, beam.results⟩ >>= _)
                            rw [same]
                            cases considered : considerAll ef (fun _ => .ok true) ((fresh beam links).zip dists)
                                ⟨beam.visited ++ fresh beam links, rest, beam.results⟩ with
                            | error error => rfl
                            | ok next =>
                                apply inductionHypothesis (roomy.round perm linked ids _)
                                unfold Beam.opened
                                rw [ids]
                                exact considered

end Loop

/-! ## Both searches -/

/-- The beam a search starts with, when its entry is allowed or not. -/
theorem startBeam_roomy (adjacency : Layer) {entry ef : Nat} (positive : 0 < ef) (dEntry : D)
    (allowed : Nat → Except Error Bool) (ok : Bool) (permits : allowed entry = .ok ok) :
    Beam.Roomy adjacency ef allowed (dEntry, entry)
      ⟨[entry], [(dEntry, entry)], if ok then [(dEntry, entry)] else []⟩ := by
  have entered : allowed entry = .ok true → (if ok then [(dEntry, entry)] else []) = [(dEntry, entry)] := by
    intro isAllowed
    rw [permits] at isAllowed
    cases isAllowed
    rfl
  constructor
  · exact List.mem_singleton_self entry
  · intro node member
    rw [List.mem_singleton.mp member]
    exact Relation.ReflTransGen.refl
  · intro item member
    rw [List.mem_singleton.mp member]
    exact List.mem_singleton_self entry
  · cases ok
    · exact Nat.zero_le _
    · exact positive
  · intro pos item above nonzero found _
    have bound := (List.getElem?_eq_some_iff.mp found).1
    cases ok
    · exact absurd bound (Nat.not_lt_zero _)
    · exact absurd (Nat.lt_one_iff.mp bound) nonzero
  · intro _ node member isAllowed
    rw [List.mem_singleton.mp member] at isAllowed ⊢
    dsimp only
    rw [entered isAllowed]
    exact List.mem_singleton_self entry
  · intro _ item member isAllowed
    rw [List.mem_singleton.mp member] at isAllowed ⊢
    dsimp only
    rw [entered isAllowed]
    exact List.mem_singleton_self _
  · intro _ node member
    rw [List.mem_singleton.mp member]
    exact .inl ⟨(dEntry, entry), List.mem_singleton_self _, rfl⟩
  · intro isAllowed
    left
    dsimp only
    rw [entered isAllowed]
    exact List.mem_singleton_self _

/-- The distinct nodes of a list that is full or holds every node of a finite set. -/
theorem length_eq_min {ef : Nat} {nodes : List Nat} {found : Set Nat} (finite : found.Finite)
    (distinct : nodes.Nodup) (inside : ∀ node ∈ nodes, node ∈ found) (bounded : nodes.length ≤ ef)
    (all : nodes.length < ef → ∀ node ∈ found, node ∈ nodes) : nodes.length = min ef found.ncard := by
  have size : (nodes.toFinset : Set Nat).ncard = nodes.length := by
    rw [Set.ncard_coe_finset, List.toFinset_card_of_nodup distinct]
  have part : (nodes.toFinset : Set Nat) ⊆ found := fun node member =>
    inside node (List.mem_toFinset.mp (Finset.mem_coe.mp member))
  have fewer := Set.ncard_le_ncard part finite
  rcases Nat.lt_or_ge nodes.length ef with room | full
  · have whole : found ⊆ (nodes.toFinset : Set Nat) := fun node member =>
      Finset.mem_coe.mpr (List.mem_toFinset.mpr (all room node member))
    rw [← Set.Subset.antisymm part whole, size, Nat.min_eq_right (Nat.le_of_lt room)]
  · omega

/-- The beam of an unfiltered search. -/
theorem openBeam_roomy (adjacency : Layer) {entry ef : Nat} (positive : 0 < ef) (dEntry : D) :
    Beam.Roomy adjacency ef (fun _ => .ok true) (dEntry, entry)
      ⟨[entry], [(dEntry, entry)], [(dEntry, entry)]⟩ :=
  startBeam_roomy adjacency positive dEntry (fun _ => .ok true) true rfl

theorem allowedAt_eq_true {mask : List Bool} {node : Nat} :
    allowedAt mask node = .ok true ↔ mask[node]? = some true := by
  unfold allowedAt
  split
  · rename_i ok stored
    rw [stored, Except.ok.injEq, Option.some.injEq]
  · rename_i missing
    rw [missing]
    exact iff_of_false (fun impossible => nomatch impossible) (fun impossible => nomatch impossible)

/-- The nodes of a layer that can be reached from the entry and satisfy the predicate. -/
def reachable (adjacency : Layer) (entry : Nat) (permitted : Nat → Prop) : Set Nat :=
  {node | adjacency.Reach entry node ∧ permitted node}

/-- The distances of the rows are the values of one function, however they are evaluated. -/
structure Computes (np : Numpy F D G) (distance : List F → List F → D) : Prop where
  product : ∀ row query, np.product row query = distance row query
  products : ∀ rows query, np.products rows query = rows.map fun row => distance row query

omit [LinearOrder D] in
theorem Computes.hit {np : Numpy F D G} {distance : List F → List F → D} (computes : Computes np distance)
    {data : List (List F)} {query : List F} {item : D × Nat} (hit : Hit np data query item) :
    ∃ row, data[item.2]? = some row ∧ item.1 = distance row query := by
  rcases hit with ⟨row, stored, one | ⟨rows, position, atRow, atDist⟩⟩
  · exact ⟨row, stored, by rw [one, computes.product]⟩
  · rw [computes.products, List.getElem?_map, atRow] at atDist
    exact ⟨row, stored, (Option.some.inj atDist).symm⟩

/-- As many distinct nodes as the beam holds, or all there are. -/
structure Answers (ef : Nat) (found : Set Nat) (hits : List (D × Nat)) : Prop where
  distinct : (hits.map Prod.snd).Nodup
  inside : ∀ item ∈ hits, item.2 ∈ found
  count : hits.length = min ef found.ncard
  all : found.ncard ≤ ef → ∀ node ∈ found, node ∈ hits.map Prod.snd

/-- Every node is reported with its distance. -/
def Measured (distance : List F → List F → D) (data : List (List F)) (query : List F)
    (hits : List (D × Nat)) : Prop :=
  ∀ item ∈ hits, ∃ row, data[item.2]? = some row ∧ item.1 = distance row query

section Search

variable (np : Numpy F D G) {data : List (List F)} {adjacency : Layer} {query : List F} {width : Nat}
  (rows : ∀ row ∈ data, row.length = width) (sound : adjacency.Sound data.length)
  (length : query.length = width)

omit [LinearOrder D] in
theorem reachable_finite {count entry : Nat} (sound : adjacency.Sound count) (has : adjacency.Has entry)
    (permitted : Nat → Prop) : (reachable adjacency entry permitted).Finite :=
  (Set.finite_lt_nat count).subset fun _ reached => sound.inside _ (sound.reach_has has reached.1)

theorem Beam.Counted.answers {entry ef : Nat} {allowed : Nat → Except Error Bool} {dEntry : D} {final : Beam D}
    (counted : final.Counted adjacency ef allowed (dEntry, entry)) (sound : adjacency.Sound data.length)
    (has : adjacency.Has entry) (valid : final.Valid np data query allowed fun _ => True)
    {permitted : Nat → Prop} (permits : ∀ node, adjacency.Reach entry node →
      (allowed node = .ok true ↔ permitted node)) :
    Answers ef (reachable adjacency entry permitted) final.results := by
  have hits := valid.hits
  have inside : ∀ node ∈ final.results.map Prod.snd, node ∈ reachable adjacency entry permitted := by
    intro node member
    have reach := counted.reached node (valid.kept.subset member)
    rcases List.mem_map.mp member with ⟨item, isResult, same⟩
    rw [← same] at reach ⊢
    exact ⟨reach, (permits _ reach).mp (valid.permitted item isResult)⟩
  have finite := reachable_finite sound has permitted
  have bounded : (final.results.map Prod.snd).length ≤ ef := by
    rw [List.length_map]
    exact counted.bounded
  have every : (final.results.map Prod.snd).length < ef →
      ∀ node ∈ reachable adjacency entry permitted, node ∈ final.results.map Prod.snd := by
    rw [List.length_map]
    intro room node reached
    exact counted.all room node reached.1 ((permits node reached.1).mpr reached.2)
  have count := length_eq_min finite hits.distinct inside bounded every
  refine ⟨hits.distinct, fun item member => inside _ (List.mem_map_of_mem member),
    by rwa [List.length_map] at count, ?_⟩
  intro few node reached
  -- as many distinct members as the finite set has are all of them
  have size : ((final.results.map Prod.snd).toFinset : Set Nat).ncard =
    (reachable adjacency entry permitted).ncard := by
    rw [Set.ncard_coe_finset, List.toFinset_card_of_nodup hits.distinct, count]
    exact Nat.min_eq_right few
  have whole := Set.eq_of_subset_of_ncard_le
    (fun other member => inside other (List.mem_toFinset.mp (Finset.mem_coe.mp member)))
      (Nat.le_of_eq size.symm) finite
  rw [← whole] at reached
  exact List.mem_toFinset.mp (Finset.mem_coe.mp reached)

omit [LinearOrder D] in
theorem startBeam_valid {entry : Nat} {dEntry : D} {allowed : Nat → Except Error Bool} {ok : Bool}
    (begins : distanceTo np data query entry = .ok dEntry) (permits : allowed entry = .ok ok) :
    Beam.Valid np data query allowed (fun _ => True)
      ⟨[entry], [(dEntry, entry)], if ok then [(dEntry, entry)] else []⟩ := by
  cases ok with
  | false =>
      exact ⟨List.nodup_singleton entry, fun _ _ => trivial, List.nil_subperm,
        (fun _ impossible => nomatch impossible), (fun _ impossible => nomatch impossible)⟩
  | true =>
      refine ⟨List.nodup_singleton entry, fun _ _ => trivial, List.Subperm.refl _, ?_, ?_⟩
      · intro item member
        rw [List.mem_singleton.mp member]
        exact permits
      · intro item member
        rw [List.mem_singleton.mp member]
        exact distanceTo_ok np begins

/-- A filtered loop that starts at the entry, whatever it filters by. -/
theorem beamLoop_answers {entry ef : Nat} (sound : adjacency.Sound data.length) (has : adjacency.Has entry)
    (positive : 0 < ef) {dEntry : D} {allowed : Nat → Except Error Bool} {ok : Bool}
    (begins : distanceTo np data query entry = .ok dEntry) (entryAllowed : allowed entry = .ok ok)
    {permitted : Nat → Prop} (permits : ∀ node, adjacency.Reach entry node →
      (allowed node = .ok true ↔ permitted node))
    {fuel : Nat} {final : Beam D}
    (ran : beamLoop np data adjacency query ef (filled ef) allowed fuel
      ⟨[entry], [(dEntry, entry)], if ok then [(dEntry, entry)] else []⟩ = .ok final) :
    Answers ef (reachable adjacency entry permitted) final.results ∧
      (∀ item ∈ final.results, Hit np data query item) ∧
      (permitted entry → Anchored ef (dEntry, entry) final.results) := by
  have counted := beamLoop_counted np fuel
    (startBeam_roomy adjacency positive dEntry allowed ok entryAllowed) ran
  have valid := beamLoop_valid np sound.distinct (fun _ _ _ => trivial) fuel
    (startBeam_valid np begins entryAllowed) ran
  refine ⟨counted.answers np sound has valid permits, valid.measured, fun isPermitted => ?_⟩
  exact counted.anchored ((permits entry Relation.ReflTransGen.refl).mpr isPermitted)

include rows sound length

/-- The unfiltered search of a layer. -/
theorem searchLayerWithDistances_answers {graph : List Layer} {entry layer ef : Nat}
    (found : graph[layer]? = some adjacency) (has : adjacency.Has entry) (positive : 0 < ef) :
    ∃ hits dEntry, searchLayerWithDistances np data graph query entry layer ef = .ok hits ∧
      Answers ef (reachable adjacency entry fun _ => True) hits ∧ (∀ item ∈ hits, Hit np data query item) ∧
      distanceTo np data query entry = .ok dEntry ∧ Anchored ef (dEntry, entry) hits := by
  have searches : Gives (searchLayerWithDistances np data graph query entry layer ef) _ :=
    searchLayer_gives np rows sound length found has
  rcases searches with ⟨hits, searched, _⟩
  rcases gave_bind searched with ⟨dEntry, begins, rest⟩
  rcases gave_bind rest with ⟨_, looked, loops⟩
  rw [layerAt_eq found] at looked
  cases looked
  rcases gave_bind loops with ⟨final, ran, isHits⟩
  cases isHits
  have allowed : (fun _ => .ok true : Nat → Except Error Bool) entry = .ok true := rfl
  rw [beamLoop_lockstep np (fun _ _ _ => rfl) _ (openBeam_roomy adjacency positive dEntry)] at ran
  rcases beamLoop_answers np sound has positive begins allowed (fun node _ => iff_of_true rfl trivial) ran with
    ⟨answers, measured, anchored⟩
  exact ⟨final.results, dEntry, searched, answers, measured, begins, anchored trivial⟩

/-- The filtered search of layer 0. -/
theorem searchLayerFiltered_answers {graph : List Layer} {entry ef : Nat} {mask : List Bool}
    (found : graph[0]? = some adjacency) (has : adjacency.Has entry) (positive : 0 < ef)
    (size : mask.length = data.length) :
    ∃ hits, searchLayerFiltered np data graph query entry ef mask = .ok hits ∧
      Answers ef (reachable adjacency entry fun node => mask[node]? = some true) hits ∧
      ∀ item ∈ hits, Hit np data query item := by
  rcases searchLayerFiltered_gives np rows sound length positive size found has with ⟨hits, searched, _⟩
  rcases gave_bind searched with ⟨dEntry, begins, rest⟩
  rcases gave_bind rest with ⟨ok, entryAllowed, rest⟩
  rcases gave_bind rest with ⟨_, looked, loops⟩
  rw [layerAt_eq found] at looked
  cases looked
  rcases gave_bind loops with ⟨final, ran, isHits⟩
  cases isHits
  rcases beamLoop_answers np sound has positive begins entryAllowed (fun node _ => allowedAt_eq_true) ran with
    ⟨answers, measured, _⟩
  exact ⟨final.results, searched, answers, measured⟩

/-- With every node allowed, both searches of layer 0 are one. -/
theorem searchLayerFiltered_all (graph : List Layer) {entry ef : Nat} (found : graph[0]? = some adjacency)
    (has : adjacency.Has entry) (positive : 0 < ef) :
    searchLayerFiltered np data graph query entry ef (List.replicate data.length true) =
      searchLayerWithDistances np data graph query entry 0 ef := by
  have permits : ∀ node, adjacency.Has node → allowedAt (List.replicate data.length true) node = .ok true :=
    fun node isNode => allowedAt_eq_true.mpr (by
      rw [List.getElem?_replicate, if_pos (sound.inside node isNode)])
  rcases distanceTo_gives np rows length (sound.inside entry has) with ⟨dEntry, begins, _⟩
  unfold searchLayerFiltered searchLayerWithDistances
  rw [begins, permits entry has, layerAt_eq found]
  have same : beamLoop np data adjacency query ef (fun _ => true) (fun _ => .ok true) (linkCount adjacency + 2)
      ⟨[entry], [(dEntry, entry)], [(dEntry, entry)]⟩ = _ :=
    beamLoop_lockstep np (fun node other link => permits other (sound.link_has link)) _
      (openBeam_roomy adjacency positive dEntry)
  change (beamLoop np data adjacency query ef (filled ef) _ _ _ >>= _) =
    (beamLoop np data adjacency query ef (fun _ => true) (fun _ => .ok true) (linkCount adjacency + 2)
      ⟨[entry], [(dEntry, entry)], [(dEntry, entry)]⟩ >>= _)
  rw [same]
  rfl

/-- Both beam searches return as many nodes as they can, and are one search when
every node is allowed. -/
theorem beam_searches_count {distance : List F → List F → D} (computes : Computes np distance)
    {graph : List Layer} {entry layer ef : Nat} (found : graph[layer]? = some adjacency)
    (has : adjacency.Has entry) (positive : 0 < ef) :
    (∃ hits row, searchLayerWithDistances np data graph query entry layer ef = .ok hits ∧
      Answers ef (reachable adjacency entry fun _ => True) hits ∧ Measured distance data query hits ∧
      data[entry]? = some row ∧ Anchored ef (distance row query, entry) hits) ∧
    (layer = 0 → ∀ mask : List Bool, mask.length = data.length →
      ∃ hits, searchLayerFiltered np data graph query entry ef mask = .ok hits ∧
        Answers ef (reachable adjacency entry fun node => mask[node]? = some true) hits ∧
        Measured distance data query hits) ∧
    (layer = 0 → searchLayerFiltered np data graph query entry ef (List.replicate data.length true) =
      searchLayerWithDistances np data graph query entry layer ef) := by
  refine ⟨?_, ?_, ?_⟩
  · rcases searchLayerWithDistances_answers np rows sound length found has positive with
      ⟨hits, dEntry, searched, answers, measured, begins, anchored⟩
    rcases computes.hit (distanceTo_ok np begins) with ⟨row, stored, rfl⟩
    exact ⟨hits, row, searched, answers, fun item member => computes.hit (measured item member), stored,
      anchored⟩
  · rintro rfl mask size
    rcases searchLayerFiltered_answers np rows sound length found has positive size with
      ⟨hits, searched, answers, measured⟩
    exact ⟨hits, searched, answers, fun item member => computes.hit (measured item member)⟩
  · rintro rfl
    exact searchLayerFiltered_all np rows sound length graph found has positive

end Search

/-! Two nodes that link each other. -/

section Sample

theorem flat_computes (distance : List F → List F → D) : Computes (Numpy.flat distance) distance :=
  ⟨fun _ _ => rfl, fun _ _ => rfl⟩

def twoRows : List (List Int) := [[1, 0], [0, 1]]

def twoLinked : Layer := (((Dict.empty.set 0 []).set 1 []).set 0 [1]).set 1 [0]

theorem twoLinked_sound : twoLinked.Sound twoRows.length := by
  have none : ∀ links : List Nat, links = [] → ∀ layer : Layer, ∀ other ∈ links, layer.Has other := by
    rintro _ rfl _ other impossible
    cases impossible
  have zero := (Layer.Sound.empty 2).set (by decide : 0 < 2) (none [] rfl _) List.nodup_nil List.not_mem_nil
  have one := zero.set (by decide : 1 < 2) (none [] rfl _) List.nodup_nil List.not_mem_nil
  have there : ∀ other ∈ [1], Layer.Has ((Dict.empty.set 0 []).set 1 []) other := by
    intro other member
    rw [List.mem_singleton.mp member]
    exact ⟨[], rfl⟩
  have forth := one.set (by decide : 0 < 2) there (List.nodup_singleton 1) (by decide)
  apply forth.set (by decide : 1 < 2) ?_ (List.nodup_singleton 0) (by decide)
  intro other member
  rw [List.mem_singleton.mp member]
  exact ⟨[1], rfl⟩

theorem beam_searches_count_two :
    (∃ hits row, searchLayerWithDistances (Numpy.flat Numpy.axisDistance) twoRows [twoLinked]
      [0, 1] 0 0 1 = .ok hits ∧
      Answers 1 (reachable twoLinked 0 fun _ => True) hits ∧ Measured Numpy.axisDistance twoRows [0, 1] hits ∧
      twoRows[0]? = some row ∧ Anchored 1 (Numpy.axisDistance row [0, 1], 0) hits) ∧
    (0 = 0 → ∀ mask : List Bool, mask.length = twoRows.length →
      ∃ hits, searchLayerFiltered (Numpy.flat Numpy.axisDistance) twoRows [twoLinked] [0, 1] 0 1 mask =
        .ok hits ∧
        Answers 1 (reachable twoLinked 0 fun node => mask[node]? = some true) hits ∧
        Measured Numpy.axisDistance twoRows [0, 1] hits) ∧
    (0 = 0 → searchLayerFiltered (Numpy.flat Numpy.axisDistance) twoRows [twoLinked] [0, 1] 0 1
        (List.replicate twoRows.length true) =
      searchLayerWithDistances (Numpy.flat Numpy.axisDistance) twoRows [twoLinked] [0, 1] 0 0 1) :=
  beam_searches_count (Numpy.flat Numpy.axisDistance) (by decide : ∀ row ∈ twoRows, row.length = 2)
    twoLinked_sound
    rfl (flat_computes Numpy.axisDistance) rfl ⟨[1], rfl⟩ (by decide)

end Sample

end HNSW
end VectorSearch
