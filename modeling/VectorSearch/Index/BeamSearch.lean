import Mathlib.Data.List.Perm.Subperm
import VectorSearch.Index.Traversal

namespace VectorSearch

/-!
# The beam search of one layer

Everything the search keeps was reached from the entry, and nothing is kept
twice.  When the beam is at least as wide as the index, no result is ever
dropped and the loop never ends early, so the results are exactly the nodes
reached from the entry.
-/

open Stateful

variable {F D G : Type}

namespace HNSW

/-- A found node with its distance, as the heaps hold it. -/
def scored (found : List (Nat × D)) : List (D × Nat) :=
  found.map Prod.swap

theorem scored_snd (found : List (Nat × D)) : (scored found).map Prod.snd = found.map Prod.fst := by
  unfold scored
  rw [List.map_map]
  rfl

theorem scored_cons_append (neighbor : Nat) (d : D) (found : List (Nat × D)) (heap : List (D × Nat)) :
    (scored found ++ (scored [(neighbor, d)] ++ heap)).Perm (scored ((neighbor, d) :: found) ++ heap) :=
  List.perm_middle

/-! ## What the inner loop adds -/

theorem subperm_map {α β : Type} (f : α → β) {part whole : List α} (subperm : part.Subperm whole) :
    (part.map f).Subperm (whole.map f) := by
  rcases subperm with ⟨middle, perm, sublist⟩
  exact ⟨middle.map f, perm.map f, sublist.map f⟩

/-- What the inner loop does to the beam: it adds some of the found nodes. -/
structure Beam.Extends (found : List (Nat × D)) (beam next : Beam D) : Prop where
  visited : next.visited = beam.visited
  candidates : next.candidates.Subperm (scored found ++ beam.candidates)
  results : next.results.Subperm (scored found ++ beam.results)
  nonempty : next.results ≠ []

theorem Beam.Extends.cons {neighbor : Nat} {d : D} {found : List (Nat × D)} {beam middle next : Beam D}
    (first : beam.Extends [(neighbor, d)] middle) (rest : middle.Extends found next) :
    beam.Extends ((neighbor, d) :: found) next := by
  constructor
  · rw [rest.visited, first.visited]
  · have more := (List.subperm_append_left (scored found)).mpr first.candidates
    exact (rest.candidates.trans more).trans (scored_cons_append neighbor d found _).subperm
  · have more := (List.subperm_append_left (scored found)).mpr first.results
    exact (rest.results.trans more).trans (scored_cons_append neighbor d found _).subperm
  · exact rest.nonempty

/-! ## Fresh neighbours -/

/-- The neighbours not visited yet. -/
def fresh (beam : Beam D) (links : List Nat) : List Nat :=
  links.filter fun n => !beam.visited.contains n

theorem mem_fresh {beam : Beam D} {links : List Nat} {node : Nat} :
    node ∈ fresh beam links ↔ node ∈ links ∧ node ∉ beam.visited := by
  unfold fresh
  rw [List.mem_filter, Bool.not_eq_true', List.contains_eq_mem, decide_eq_false_iff_not]

/-- What can still happen: the candidates, and the links to nodes not visited. -/
def pending (adjacency : Layer) (beam : Beam D) : Nat :=
  beam.candidates.length +
    (adjacency.entries.flatMap Prod.snd).countP fun node => !beam.visited.contains node

/-- Visiting the fresh neighbours of a node uses up as many of its links. -/
theorem countP_fresh (adjacency : Layer) {node : Nat} {links : List Nat} (beam : Beam D)
    (found : adjacency.get? node = some links) :
    (fresh beam links).length + (adjacency.entries.flatMap Prod.snd).countP
      (fun other => !(beam.visited ++ fresh beam links).contains other) ≤
      (adjacency.entries.flatMap Prod.snd).countP fun other => !beam.visited.contains other := by
  have part : links.Sublist (adjacency.entries.flatMap Prod.snd) := by
    rcases List.append_of_mem (Dict.get?_mem found) with ⟨before, after, entries⟩
    rw [entries, List.flatMap_append, List.flatMap_cons]
    exact (List.sublist_append_left links _).trans (List.sublist_append_right _ _)
  generalize adjacency.entries.flatMap Prod.snd = targets at part
  rw [List.countP_eq_countP_filter_add targets (fun other => !beam.visited.contains other)
    (fun other => (fresh beam links).contains other)]
  apply Nat.add_le_add
  · have inLinks : (links.filter fun other => (fresh beam links).contains other).countP
        (fun other => !beam.visited.contains other) = (fresh beam links).length := by
      rw [List.countP_eq_length_filter, List.filter_filter]
      unfold fresh
      congr 1
      apply List.filter_congr
      intro other member
      simp only [List.contains_eq_mem, List.mem_filter, member, true_and, Bool.decide_eq_true]
      cases decide (other ∈ beam.visited) <;> rfl
    rw [← inLinks]
    exact (part.filter _).countP_le
  · rw [List.countP_filter]
    apply List.countP_mono_left
    intro other _ new
    rw [List.contains_eq_mem, Bool.not_eq_true', decide_eq_false_iff_not, List.mem_append, not_or] at new
    simp only [List.contains_eq_mem, new.1, new.2, decide_false, Bool.not_false, Bool.and_self]

/-! ## What a search knows at any time -/

/-- Everything a search holds was reached from the entry. -/
structure Beam.Within (adjacency : Layer) (entry : Nat) (beam : Beam D) : Prop where
  started : entry ∈ beam.visited
  reached : ∀ node ∈ beam.visited, adjacency.Reach entry node
  distinct : beam.visited.Nodup
  waiting : ∀ item ∈ beam.candidates, item.2 ∈ beam.visited
  kept : (beam.results.map Prod.snd).Subperm beam.visited
  nonempty : beam.results ≠ []

theorem Beam.Within.kept_nodup {adjacency : Layer} {entry : Nat} {beam : Beam D}
    (within : beam.Within adjacency entry) : (beam.results.map Prod.snd).Nodup := by
  rcases within.kept with ⟨part, perm, sublist⟩
  exact perm.nodup_iff.mp (within.distinct.sublist sublist)

theorem Beam.Within.visited_length_le {count : Nat} {adjacency : Layer} {entry : Nat} {beam : Beam D}
    (within : beam.Within adjacency entry) (sound : adjacency.Sound count) (has : adjacency.Has entry) :
    beam.visited.length ≤ count := by
  have inside : beam.visited ⊆ List.range count := fun node member =>
    List.mem_range.mpr (sound.inside node (sound.reach_has has (within.reached node member)))
  have bound := (within.distinct.subperm inside).length_le
  rwa [List.length_range] at bound

/-- The beam a search starts with. -/
def startBeam (entry : Nat) (dEntry : D) : Beam D :=
  ⟨[entry], [(dEntry, entry)], [(dEntry, entry)]⟩

theorem startBeam_within (adjacency : Layer) (entry : Nat) (dEntry : D) :
    (startBeam entry dEntry).Within adjacency entry := by
  have only : ∀ node ∈ [entry], node = entry := fun node member => List.mem_singleton.mp member
  constructor
  · exact List.mem_singleton_self entry
  · intro node member
    rw [only node member]
    exact Relation.ReflTransGen.refl
  · exact List.nodup_singleton entry
  · intro item member
    rw [List.mem_singleton.mp member]
    exact List.mem_singleton_self entry
  · exact List.Subperm.refl [entry]
  · exact List.cons_ne_nil _ _

theorem startBeam_pending (adjacency : Layer) (entry : Nat) (dEntry : D) :
    pending adjacency (startBeam entry dEntry) < linkCount adjacency + 2 := by
  have part := List.countP_le_length (p := fun node => !(startBeam entry dEntry).visited.contains node)
    (l := adjacency.entries.flatMap Prod.snd)
  rw [List.length_flatMap] at part
  change 1 + _ < linkCount adjacency + 2
  unfold linkCount
  omega

variable [LinearOrder D]

/-! ## The heap order of the results -/

theorem farther_eq_true {left right : D × Nat} :
    farther left right = true ↔ right.1 < left.1 ∨ (left.1 = right.1 ∧ left.2 < right.2) := by
  unfold farther
  rw [Bool.or_eq_true, Bool.and_eq_true, decide_eq_true_eq, decide_eq_true_eq, decide_eq_true_eq]

theorem farther_asymm (left right : D × Nat) (far : farther left right = true) :
    farther right left = false := by
  rw [← Bool.not_eq_true, farther_eq_true]
  rintro (lt | ⟨equal, lt⟩)
  · rcases farther_eq_true.mp far with gt | ⟨same, _⟩
    · exact absurd lt (lt_asymm gt)
    · exact absurd same (ne_of_lt lt)
  · rcases farther_eq_true.mp far with gt | ⟨_, gt⟩
    · exact absurd equal (ne_of_lt gt)
    · exact absurd lt (Nat.lt_asymm gt)

theorem farther_negTrans (first second third : D × Nat) (one : farther first second = false)
    (two : farther second third = false) : farther first third = false := by
  rw [← Bool.not_eq_true, farther_eq_true, not_or, not_and] at *
  rcases one with ⟨near, small⟩
  rcases two with ⟨nearer, smaller⟩
  have le : first.1 ≤ second.1 := not_lt.mp near
  have le' : second.1 ≤ third.1 := not_lt.mp nearer
  constructor
  · exact not_lt.mpr (le_trans le le')
  · intro equal
    have same : first.1 = second.1 := le_antisymm le (equal ▸ le')
    have same' : second.1 = third.1 := same ▸ equal
    exact not_lt.mpr (Nat.le_trans (not_lt.mp (smaller same')) (not_lt.mp (small same)))

theorem farther_irrefl (item : D × Nat) : farther item item = false := by
  rw [← Bool.not_eq_true, farther_eq_true, not_or]
  exact ⟨lt_irrefl _, fun same => Nat.lt_irrefl _ same.2⟩

/-! ## The inner loop -/

theorem admits_gives (ef : Nat) {results : List (D × Nat)} (nonempty : results ≠ []) (d : D) :
    Gives (admits ef results d) fun admitted => results.length < ef → admitted = true := by
  unfold admits
  split
  · exact ⟨true, rfl, fun _ => rfl⟩
  · rename_i noRoom
    rcases List.exists_cons_of_ne_nil nonempty with ⟨worst, others, isResults⟩
    rw [isResults]
    rw [isResults] at noRoom
    exact ⟨decide (d < worst.1), rfl, fun room => absurd room noRoom⟩

theorem pushResult_gives (ef : Nat) {results : List (D × Nat)} (nonempty : results ≠ []) (item : D × Nat) :
    Gives (pushResult ef results item) fun kept => kept.Subperm (item :: results) ∧ kept ≠ [] := by
  have pushed := Heapq.heappush_perm farther results item
  have some : 0 < results.length := List.length_pos_iff.mpr nonempty
  unfold pushResult
  split
  · split
    · rename_i empty
      rw [Heapq.heappop_eq_none empty] at pushed
      exact absurd pushed.symm.eq_nil (List.cons_ne_nil _ _)
    · rename_i top rest popped
      have whole := (Heapq.heappop_perm popped).symm.trans pushed
      refine ⟨rest, rfl, (List.sublist_cons_self top rest).subperm.trans whole.subperm, ?_⟩
      intro nothing
      have count := whole.length_eq
      rw [nothing, List.length_singleton, List.length_cons] at count
      omega
  · refine ⟨_, rfl, pushed.subperm, ?_⟩
    intro nothing
    rw [nothing] at pushed
    exact absurd pushed.symm.eq_nil (List.cons_ne_nil _ _)

theorem consider_extends (ef : Nat) {beam : Beam D} (nonempty : beam.results ≠ []) (d : D) (neighbor : Nat) :
    Gives (consider ef true beam d neighbor) fun next => beam.Extends [(neighbor, d)] next := by
  apply Gives.bind (admits_gives ef nonempty d)
  intro admitted _
  cases admitted with
  | false =>
      have less := (List.sublist_cons_self (d, neighbor) beam.candidates).subperm
      have fewer := (List.sublist_cons_self (d, neighbor) beam.results).subperm
      exact Gives.pure ⟨rfl, less, fewer, nonempty⟩
  | true =>
      apply Gives.bind (pushResult_gives ef nonempty (d, neighbor))
      rintro kept ⟨some, left⟩
      exact Gives.pure ⟨rfl, (Heapq.heappush_perm closer beam.candidates (d, neighbor)).subperm, some, left⟩

theorem considerAll_extends (ef : Nat) (found : List (Nat × D)) {beam : Beam D} (nonempty : beam.results ≠ []) :
    Gives (considerAll ef (fun _ => .ok true) found beam) fun next => beam.Extends found next := by
  induction found generalizing beam with
  | nil => exact Gives.pure ⟨rfl, List.Subperm.refl _, List.Subperm.refl _, nonempty⟩
  | cons head rest inductionHypothesis =>
      rcases head with ⟨neighbor, d⟩
      apply Gives.bind (consider_extends ef nonempty d neighbor)
      intro middle first
      apply Gives.imp (inductionHypothesis first.nonempty)
      exact fun next rest => first.cons rest

/-- With room for all the found nodes, none is turned away and none dropped. -/
structure Beam.Takes (found : List (Nat × D)) (beam next : Beam D) : Prop where
  visited : next.visited = beam.visited
  candidates : next.candidates.Perm (scored found ++ beam.candidates)
  results : next.results.Perm (scored found ++ beam.results)
  ordered : Heapq.Ordered farther next.results

theorem consider_takes {ef : Nat} {beam : Beam D} (room : beam.results.length < ef)
    (ordered : Heapq.Ordered farther beam.results) (d : D) (neighbor : Nat) :
    Gives (consider ef true beam d neighbor) fun next => beam.Takes [(neighbor, d)] next := by
  have pushed := Heapq.heappush_perm farther beam.results (d, neighbor)
  have kept : pushResult ef beam.results (d, neighbor) =
      .ok (Heapq.heappush farther beam.results (d, neighbor)) := by
    unfold pushResult
    rw [if_neg]
    rw [pushed.length_eq, List.length_cons]
    omega
  have admitted : admits ef beam.results d = .ok true := if_pos room
  unfold consider
  rw [admitted, kept]
  exact Gives.pure ⟨rfl, Heapq.heappush_perm closer beam.candidates (d, neighbor), pushed,
    Heapq.heappush_ordered farther_asymm farther_negTrans (d, neighbor) ordered⟩

theorem considerAll_takes {ef : Nat} (found : List (Nat × D)) {beam : Beam D}
    (room : found.length + beam.results.length ≤ ef) (ordered : Heapq.Ordered farther beam.results) :
    Gives (considerAll ef (fun _ => .ok true) found beam) fun next => beam.Takes found next := by
  induction found generalizing beam with
  | nil => exact Gives.pure ⟨rfl, List.Perm.refl _, List.Perm.refl _, ordered⟩
  | cons head rest inductionHypothesis =>
      rcases head with ⟨neighbor, d⟩
      rw [List.length_cons] at room
      apply Gives.bind (consider_takes (by omega) ordered d neighbor)
      intro middle first
      have count := first.results.length_eq
      rw [List.length_append] at count
      change middle.results.length = 1 + beam.results.length at count
      apply Gives.imp (inductionHypothesis (by omega) first.ordered)
      intro next later
      constructor
      · rw [later.visited, first.visited]
      · have more := first.candidates.append_left (scored rest)
        exact (later.candidates.trans more).trans (scored_cons_append neighbor d rest _)
      · have more := first.results.append_left (scored rest)
        exact (later.results.trans more).trans (scored_cons_append neighbor d rest _)
      · exact later.ordered

/-! ## One round of the loop -/

/-- The beam of a round after the candidate was taken out and the fresh
neighbours were marked. -/
def Beam.opened (beam : Beam D) (rest : List (D × Nat)) (found : List (Nat × D)) : Beam D :=
  ⟨beam.visited ++ found.map Prod.fst, rest, beam.results⟩

/-- One round: the closest candidate is taken out and the fresh ones among its
neighbours are considered. -/
structure Beam.Round (adjacency : Layer) (ef : Nat) (item : D × Nat) (rest : List (D × Nat))
    (links : List Nat) (found : List (Nat × D)) (beam next : Beam D) : Prop where
  popped : Heapq.heappop closer beam.candidates = some (item, rest)
  linked : adjacency.get? item.2 = some links
  isFresh : found.map Prod.fst = fresh beam links
  considered : considerAll ef (fun _ => .ok true) found (beam.opened rest found) = .ok next

theorem Beam.Round.extends {adjacency : Layer} {ef : Nat} {item : D × Nat}
    {rest : List (D × Nat)} {links : List Nat} {found : List (Nat × D)} {beam next : Beam D}
    (round : beam.Round adjacency ef item rest links found next) (nonempty : beam.results ≠ []) :
    (beam.opened rest found).Extends found next := by
  have same : (beam.opened rest found).results ≠ [] := nonempty
  rcases considerAll_extends ef found same with ⟨other, run, holds⟩
  rw [← Except.ok.inj (run.symm.trans round.considered)]
  exact holds

theorem Beam.Round.next_within {adjacency : Layer} {entry ef : Nat} {item : D × Nat}
    {rest : List (D × Nat)} {links : List Nat} {found : List (Nat × D)} {beam next : Beam D}
    (round : beam.Round adjacency ef item rest links found next) (within : beam.Within adjacency entry)
    (distinct : links.Nodup) : next.Within adjacency entry := by
  have added := round.extends within.nonempty
  have popped := Heapq.heappop_perm round.popped
  have isVisited : next.visited = beam.visited ++ found.map Prod.fst := added.visited
  have taken : item.2 ∈ beam.visited :=
    within.waiting item (popped.symm.subset List.mem_cons_self)
  have fromFound : ∀ pair ∈ scored found, pair.2 ∈ found.map Prod.fst := by
    intro pair member
    rw [← scored_snd]
    exact List.mem_map_of_mem member
  constructor
  · rw [isVisited]
    exact List.mem_append_left _ within.started
  · intro node member
    rw [isVisited, round.isFresh] at member
    rcases List.mem_append.mp member with old | new
    · exact within.reached node old
    · exact Relation.ReflTransGen.tail (within.reached item.2 taken)
        ⟨links, round.linked, (mem_fresh.mp new).1⟩
  · rw [isVisited, round.isFresh, List.nodup_append]
    refine ⟨within.distinct, distinct.filter _, ?_⟩
    intro node old other new same
    rw [← same] at new
    exact (mem_fresh.mp new).2 old
  · intro pair member
    rw [isVisited]
    rcases List.mem_append.mp (added.candidates.subset member) with new | old
    · exact List.mem_append_right _ (fromFound pair new)
    · exact List.mem_append_left _
        (within.waiting pair (popped.symm.subset (List.mem_cons_of_mem item old)))
  · have both := subperm_map Prod.snd added.results
    rw [List.map_append, scored_snd] at both
    have more := (List.subperm_append_left (found.map Prod.fst)).mpr within.kept
    rw [isVisited]
    exact (both.trans more).trans List.perm_append_comm.subperm
  · exact added.nonempty

theorem Beam.Round.pending_lt {adjacency : Layer} {entry ef : Nat} {item : D × Nat}
    {rest : List (D × Nat)} {links : List Nat} {found : List (Nat × D)} {beam next : Beam D}
    (round : beam.Round adjacency ef item rest links found next) (within : beam.Within adjacency entry) :
    pending adjacency next < pending adjacency beam := by
  have added := round.extends within.nonempty
  have popped := (Heapq.heappop_perm round.popped).length_eq
  have more := added.candidates.length_le
  have isVisited : next.visited = beam.visited ++ found.map Prod.fst := added.visited
  have used := countP_fresh adjacency beam round.linked
  have size : found.length = (fresh beam links).length := by
    rw [← round.isFresh, List.length_map]
  rw [List.length_cons] at popped
  rw [List.length_append, scored, List.length_map] at more
  change next.candidates.length ≤ found.length + rest.length at more
  unfold pending
  rw [isVisited, round.isFresh]
  omega

/-- How the loop ended, with the beam of its last round: the candidates ran
out, or the closest one is farther than the worst result. -/
structure Beam.Ended (last final : Beam D) : Prop where
  results : final.results = last.results
  spent : last.candidates = [] ∨ ∃ item ∈ last.candidates, ∃ worst,
    last.results.head? = some worst ∧ worst.1 < item.1

/-! ## A beam as wide as the index -/

/-- What holds when no result was ever dropped: everything visited is among the
results, and what is not yet expanded is among the candidates. -/
structure Beam.Complete (adjacency : Layer) (beam : Beam D) : Prop where
  all : (beam.results.map Prod.snd).Perm beam.visited
  waiting : ∀ item ∈ beam.candidates, item ∈ beam.results
  ordered : Heapq.Ordered farther beam.results
  closed : ∀ node ∈ beam.visited, (∃ item ∈ beam.candidates, item.2 = node) ∨
    ∀ other, adjacency.Link node other → other ∈ beam.visited

theorem Beam.Round.next_complete {adjacency : Layer} {ef : Nat} {item : D × Nat}
    {rest : List (D × Nat)} {links : List Nat} {found : List (Nat × D)} {beam next : Beam D}
    (round : beam.Round adjacency ef item rest links found next) (complete : beam.Complete adjacency)
    (room : (beam.visited ++ found.map Prod.fst).length ≤ ef) : next.Complete adjacency := by
  have count := complete.all.length_eq
  rw [List.length_map] at count
  rw [List.length_append, List.length_map] at room
  have space : found.length + (beam.opened rest found).results.length ≤ ef := by
    change found.length + beam.results.length ≤ ef
    omega
  have ordered : Heapq.Ordered farther (beam.opened rest found).results := complete.ordered
  rcases considerAll_takes found space ordered with ⟨other, run, takes⟩
  rw [Except.ok.inj (run.symm.trans round.considered)] at takes
  have popped := Heapq.heappop_perm round.popped
  have isVisited : next.visited = beam.visited ++ found.map Prod.fst := takes.visited
  constructor
  · have both := takes.results.map Prod.snd
    rw [List.map_append, scored_snd] at both
    rw [isVisited]
    exact (both.trans (complete.all.append_left _)).trans List.perm_append_comm
  · intro pair member
    apply takes.results.symm.subset
    rcases List.mem_append.mp (takes.candidates.subset member) with new | old
    · exact List.mem_append_left _ new
    · exact List.mem_append_right _
        (complete.waiting pair (popped.symm.subset (List.mem_cons_of_mem item old)))
  · exact takes.ordered
  · intro node member
    rw [isVisited] at member ⊢
    rcases List.mem_append.mp member with old | new
    · by_cases expanded : node = item.2
      · -- all links of the expanded node are visited now
        right
        rintro other ⟨stored, foundLinks, memberLinks⟩
        rw [expanded, round.linked] at foundLinks
        cases foundLinks
        by_cases before : other ∈ beam.visited
        · exact List.mem_append_left _ before
        · apply List.mem_append_right
          rw [round.isFresh]
          exact mem_fresh.mpr ⟨memberLinks, before⟩
      · rcases complete.closed node old with ⟨pair, waiting, same⟩ | closed
        · left
          rcases List.mem_cons.mp (popped.subset waiting) with isItem | later
          · rw [isItem] at same
            exact absurd same.symm expanded
          · exact ⟨pair, takes.candidates.symm.subset (List.mem_append_right _ later), same⟩
        · exact Or.inr fun other link => List.mem_append_left _ (closed other link)
    · left
      rw [← scored_snd] at new
      rcases List.mem_map.mp new with ⟨pair, isFound, same⟩
      exact ⟨pair, takes.candidates.symm.subset (List.mem_append_left _ isFound), same⟩

/-- A complete beam never ends early. -/
theorem Beam.Complete.exhausts {adjacency : Layer} {last final : Beam D} (complete : last.Complete adjacency)
    (ended : last.Ended final) : last.candidates = [] := by
  rcases ended.spent with done | ⟨item, member, worst, isWorst, far⟩
  · exact done
  · rw [List.head?_eq_getElem?] at isWorst
    rcases List.getElem?_of_mem (complete.waiting item member) with ⟨place, atPlace⟩
    have near := complete.ordered.first farther_negTrans farther_irrefl isWorst place item atPlace
    rw [farther_eq_true.mpr (Or.inl far)] at near
    cases near

/-- When nothing is left to expand, everything reachable was visited. -/
theorem Beam.Complete.visits {adjacency : Layer} {entry node : Nat} {beam : Beam D}
    (complete : beam.Complete adjacency) (started : entry ∈ beam.visited) (done : beam.candidates = [])
    (reach : adjacency.Reach entry node) : node ∈ beam.visited := by
  induction reach with
  | refl => exact started
  | tail _ link inductionHypothesis =>
      rcases complete.closed _ inductionHypothesis with ⟨item, waiting, _⟩ | closed
      · rw [done] at waiting
        cases waiting
      · exact closed _ link

theorem startBeam_complete (adjacency : Layer) (entry : Nat) (dEntry : D) :
    (startBeam entry dEntry).Complete adjacency := by
  constructor
  · exact List.Perm.refl [entry]
  · exact fun item member => member
  · intro pos item above nonzero found _
    have bound := (List.getElem?_eq_some_iff.mp found).1
    exact absurd (Nat.lt_one_iff.mp bound) nonzero
  · intro node member
    rw [List.mem_singleton.mp member]
    exact Or.inl ⟨(dEntry, entry), List.mem_singleton_self _, rfl⟩

/-! ## The whole search -/

section Search

variable (np : Numpy F D G) {data : List (List F)} {adjacency : Layer} {query : List F} {width : Nat}
  (rows : ∀ row ∈ data, row.length = width) (sound : adjacency.Sound data.length)
  (length : query.length = width)

include rows sound length

/-- The loop ends, and what every round keeps holds of its last beam. -/
theorem beamLoop_gives {ef entry : Nat} (invariant : Beam D → Prop)
    (keeps : ∀ item rest links found beam next, beam.Within adjacency entry → invariant beam →
      beam.Round adjacency ef item rest links found next → invariant next)
    (has : adjacency.Has entry) (fuel : Nat) (beam : Beam D) (within : beam.Within adjacency entry)
    (holds : invariant beam) (enough : pending adjacency beam < fuel) :
    Gives (beamLoop np data adjacency query ef (fun _ => true) (fun _ => .ok true) fuel beam)
      fun final => ∃ last : Beam D, last.Within adjacency entry ∧ invariant last ∧ last.Ended final := by
  induction fuel generalizing beam with
  | zero => exact absurd enough (Nat.not_lt_zero _)
  | succ fuel inductionHypothesis =>
      unfold beamLoop
      split
      · rename_i empty
        exact ⟨beam, rfl, beam, within, holds, rfl, Or.inl (Heapq.heappop_eq_none empty)⟩
      · rename_i distC c rest popped
        have taken : (distC, c) ∈ beam.candidates :=
          (Heapq.heappop_perm popped).symm.subset List.mem_cons_self
        rcases List.exists_cons_of_ne_nil within.nonempty with ⟨worst, others, isResults⟩
        have isWorst : beam.results.head? = some worst := by rw [isResults, List.head?_cons]
        have tested : exhausted (fun _ => true) beam distC = .ok (decide (worst.1 < distC)) := by
          unfold exhausted
          rw [if_pos rfl, isWorst]
        rw [tested]
        by_cases far : worst.1 < distC
        · rw [decide_eq_true far]
          exact ⟨_, rfl, beam, within, holds, rfl, Or.inr ⟨(distC, c), taken, worst, isWorst, far⟩⟩
        · rw [decide_eq_false far]
          have reached := within.reached c (within.waiting (distC, c) taken)
          rcases sound.reach_has has reached with ⟨links, linked⟩
          rw [neighborsOf_eq linked]
          have inside : ∀ node ∈ fresh beam links, node < data.length := fun node member =>
            sound.inside node (sound.closed c links linked node (mem_fresh.mp member).1)
          -- the rest of the round, with the distances of the fresh neighbours
          have continue' : ∀ (found : List (Nat × D)) (next : Beam D), found.map Prod.fst = fresh beam links →
              considerAll ef (fun _ => .ok true) found (beam.opened rest found) = .ok next →
              Gives (beamLoop np data adjacency query ef (fun _ => true) (fun _ => .ok true) fuel next)
                fun final => ∃ last : Beam D, last.Within adjacency entry ∧ invariant last ∧
                  last.Ended final := by
            intro found next isFresh considered
            have round : beam.Round adjacency ef (distC, c) rest links found next :=
              ⟨popped, linked, isFresh, considered⟩
            have fewer := round.pending_lt within
            exact inductionHypothesis next (round.next_within within (sound.distinct c links linked))
              (keeps _ _ _ _ beam next within holds round) (by omega)
          change Gives (if fresh beam links = [] then _ else _) _
          split
          · rename_i nothing
            apply continue' [] _ nothing.symm
            simp only [Beam.opened, List.map_nil, List.append_nil]
            rfl
          · rcases distancesTo_gives np rows length inside with ⟨dists, given, count⟩
            have isFresh : ((fresh beam links).zip dists).map Prod.fst = fresh beam links :=
              List.map_fst_zip (Nat.le_of_eq count.symm)
            have nonempty : (beam.opened rest ((fresh beam links).zip dists)).results ≠ [] := within.nonempty
            rcases considerAll_extends ef ((fresh beam links).zip dists) nonempty with ⟨next, considered, _⟩
            have run := considered
            unfold Beam.opened at run
            rw [isFresh] at run
            change Gives (distancesTo np data query (fresh beam links) >>= _) _
            rw [given]
            change Gives (considerAll ef (fun _ => .ok true) ((fresh beam links).zip dists)
              ⟨beam.visited ++ fresh beam links, rest, beam.results⟩ >>= _) _
            rw [run]
            exact continue' _ next isFresh considered

/-- Every search of a layer returns, with nodes reached from its entry. -/
theorem searchLayer_gives {graph : List Layer} {entry layer ef : Nat} (found : graph[layer]? = some adjacency)
    (has : adjacency.Has entry) :
    Gives (searchLayerWithDistances np data graph query entry layer ef) fun results =>
      results ≠ [] ∧ (results.map Prod.snd).Nodup ∧
        ∀ node ∈ results.map Prod.snd, adjacency.Reach entry node := by
  apply Gives.bind (distanceTo_gives np rows length (sound.inside entry has))
  intro dEntry _
  rw [layerAt_eq found]
  apply Gives.bind (beamLoop_gives np rows sound length (fun _ => True) (fun _ _ _ _ _ _ _ _ _ => trivial)
    has _ _ (startBeam_within adjacency entry dEntry) trivial (startBeam_pending adjacency entry dEntry))
  rintro final ⟨last, within, _, ended⟩
  refine Gives.pure ⟨?_, ?_, ?_⟩
  · rw [ended.results]
    exact within.nonempty
  · rw [ended.results]
    exact within.kept_nodup
  · rw [ended.results]
    exact fun node member => within.reached node (within.kept.subset member)

/-- A search with a beam as wide as the index returns every node it can reach. -/
theorem searchLayer_complete {graph : List Layer} {entry layer ef : Nat}
    (found : graph[layer]? = some adjacency) (has : adjacency.Has entry) (wide : data.length ≤ ef) :
    Gives (searchLayerWithDistances np data graph query entry layer ef) fun results =>
      (results.map Prod.snd).Nodup ∧ ∀ node, node ∈ results.map Prod.snd ↔ adjacency.Reach entry node := by
  apply Gives.bind (distanceTo_gives np rows length (sound.inside entry has))
  intro dEntry _
  rw [layerAt_eq found]
  apply Gives.bind (beamLoop_gives np rows sound length (Beam.Complete adjacency) ?_ has _ _
    (startBeam_within adjacency entry dEntry) (startBeam_complete adjacency entry dEntry)
    (startBeam_pending adjacency entry dEntry))
  · rintro final ⟨last, within, complete, ended⟩
    have done := complete.exhausts ended
    refine Gives.pure ⟨?_, ?_⟩
    · rw [ended.results]
      exact within.kept_nodup
    · intro node
      rw [ended.results, complete.all.mem_iff]
      exact ⟨within.reached node, complete.visits within.started done⟩
  · intro item rest links found beam next within complete round
    have after := round.next_within within (sound.distinct item.2 links round.linked)
    have isVisited : next.visited = beam.visited ++ found.map Prod.fst :=
      (round.extends within.nonempty).visited
    apply round.next_complete complete
    rw [← isVisited]
    exact Nat.le_trans (after.visited_length_le sound has) wide

end Search

end HNSW
end VectorSearch
