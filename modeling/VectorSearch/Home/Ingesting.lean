import VectorSearch.Home.Commands
import VectorSearch.Lib.Firsts
import VectorSearch.Lib.Ghost

namespace VectorSearch

/-!
# Ingests one after another

`ingest_files` with the files it meets as ghost state: what each file's contents
hash to, and how it is counted.  A sequence of completed calls on one cluster
handles the files by the keys they are recorded under, and so by namespace and
path exactly when the keys tell these apart.
-/

namespace Home

open Firsts

variable {V D : Type}

/-! ## The files that are met -/

/-- A file as an ingest meets it: it was known, with the same contents or not, or
so many passages of it were stored. -/
structure Visit where
  name : Option String
  path : String
  digest : String
  outcome : Bool ⊕ Nat

namespace Visit

/-- The namespace, if any, and the file. -/
def pair (visit : Visit) : Option String × String := (visit.name.filter (· ≠ ""), visit.path)

/-- What the file is recorded under. -/
def key (visit : Visit) : String := sourceKey visit.name visit.path

def Stored (visit : Visit) : Prop := ∃ count, visit.outcome = .inr count

/-- The passages that were stored. -/
def count (visit : Visit) : Nat :=
  match visit.outcome with
  | .inl _ => 0
  | .inr count => count

/-- The handling of a file after others, where files with the same image count as
the same. -/
structure HandledBy {K : Type} (image : Visit → K) (front : List Visit) (visit : Visit) : Prop where
  first : IsNew image front visit → visit.Stored
  again : (∃ old ∈ front, image old = image visit) → ¬ visit.Stored
  unchanged : visit.outcome = .inl true ↔
    ∃ old ∈ front, image old = image visit ∧ old.Stored ∧ old.digest = visit.digest

/-- The empty namespace counts as none. -/
theorem key_eq (visit : Visit) : visit.key = sourceKey visit.pair.1 visit.pair.2 := by
  rcases visit with ⟨name, path, digest, outcome⟩
  cases name with
  | none => rfl
  | some name =>
      by_cases empty : name = ""
      · simp only [key, pair, sourceKey, Option.filter, empty, if_true, ne_eq, not_true_eq_false, decide_false,
          Bool.false_eq_true, if_false]
      · simp only [key, pair, Option.filter, empty, ne_eq, not_false_eq_true, decide_true, if_true]

theorem key_of_pair {first second : Visit} (same : first.pair = second.pair) : first.key = second.key := by
  rw [key_eq, key_eq, same]

/-- Where keys tell the pairs apart, handling by key is handling by pair. -/
theorem handled_pair_iff {visits : List Visit} (byKey : Throughout visits (HandledBy key)) :
    Throughout visits (HandledBy pair) ↔ Separates key pair visits := by
  constructor
  · intro byPair
    refine separates_of_first (fun _ _ => key_of_pair) fun front visit back whole isNew => ?_
    by_contra known
    exact (byKey front visit back whole).again (not_isNew.mp known)
      ((byPair front visit back whole).first isNew)
  · intro separates
    refine byKey.imp fun front visit isIn within handled => ?_
    have same : ∀ old ∈ front, old.pair = visit.pair ↔ old.key = visit.key := fun old member =>
      ⟨key_of_pair, separates old (within member) visit isIn⟩
    refine ⟨fun isNew => handled.first fun old member equal => isNew old member
      ((same old member).mpr equal), ?_, ?_⟩
    · rintro ⟨old, member, equal⟩
      exact handled.again ⟨old, member, key_of_pair equal⟩
    · refine handled.unchanged.trans (exists_congr fun old => and_congr_right fun member => ?_)
      exact and_congr_left fun _ => (same old member).symm

end Visit

/-! ## Which keys clash -/

/-- What stands between a namespace and an absolute path. -/
def pathMark : List Char := [':', ':', '/']

theorem marked_le {front other back rest : List Char} (plain : ¬ pathMark <:+: other)
    (same : front ++ (pathMark ++ back) = other ++ (pathMark ++ rest)) : other.length ≤ front.length := by
  by_contra longer
  rcases List.append_eq_append_iff.mp same with ⟨between, isOther, tail⟩ | ⟨between, isFront, _⟩
  · match between with
    | [] =>
        rw [isOther, List.append_nil] at longer
        omega
    | [_] => exact absurd tail (by simp [pathMark])
    | [_, _] => exact absurd tail (by simp [pathMark])
    | first :: second :: third :: between =>
        simp only [pathMark, List.cons_append, List.nil_append, List.cons.injEq] at tail
        rcases tail with ⟨rfl, rfl, rfl, _⟩
        exact plain ⟨front, between, by rw [isOther, List.append_assoc]; rfl⟩
  · rw [isFront, List.length_append] at longer
    omega

theorem marked_inj {front other back rest : List Char} (plain : ¬ pathMark <:+: front)
    (alsoPlain : ¬ pathMark <:+: other)
    (same : front ++ (pathMark ++ back) = other ++ (pathMark ++ rest)) : front = other ∧ back = rest := by
  have lengths := Nat.le_antisymm (marked_le plain same.symm) (marked_le alsoPlain same)
  rcases List.append_inj same lengths with ⟨fronts, marked⟩
  exact ⟨fronts, List.append_cancel_left marked⟩

theorem toList_sourceKey {name : String} (some : name ≠ "") (path : String) :
    (sourceKey (.some name) path).toList = name.toList ++ ("::".toList ++ path.toList) := by
  unfold sourceKey
  refine (congrArg String.toList (if_neg some)).trans ?_
  change (name ++ "::" ++ path).toList = _
  rw [String.toList_append, String.toList_append, List.append_assoc]

/-- The namespaces and absolute paths that are told apart. -/
structure PlainPair (pair : Option String × String) : Prop where
  absolute : ∃ rest, pair.2.toList = '/' :: rest
  named : ∀ name, pair.1 = some name → name ≠ "" ∧ ¬ pathMark <:+: name.toList ∧ ¬ ['/'] <+: name.toList

theorem sourceKey_inj {first second : Option String × String} (plain : PlainPair first)
    (alsoPlain : PlainPair second)
    (same : sourceKey first.1 first.2 = sourceKey second.1 second.2) : first = second := by
  -- the key of a named file begins with the name, which does not begin like a path
  have unnamed : ∀ name path other, PlainPair (some name, path) → PlainPair (none, other) →
      sourceKey (some name) path ≠ sourceKey none other := by
    intro name path other isPlain alsoPlain same
    rcases isPlain.named name rfl with ⟨notEmpty, _, notPath⟩
    rcases alsoPlain.absolute with ⟨rest, isOther⟩
    have characters := congrArg String.toList same
    rw [toList_sourceKey notEmpty, show (sourceKey none other).toList = '/' :: rest from isOther] at characters
    cases isName : name.toList with
    | nil => exact notEmpty (String.toList_inj.mp isName)
    | cons head tail =>
        rw [isName, List.cons_append, List.cons.injEq] at characters
        exact notPath ⟨tail, by rw [isName, characters.1]; rfl⟩
  rcases first with ⟨firstName, firstPath⟩
  rcases second with ⟨secondName, secondPath⟩
  cases firstName with
  | none =>
      cases secondName with
      | none => exact congrArg (Prod.mk none) same
      | some name => exact absurd same.symm (unnamed name _ _ alsoPlain plain)
  | some name =>
      cases secondName with
      | none => exact absurd same (unnamed name _ _ plain alsoPlain)
      | some other =>
          rcases plain.named name rfl with ⟨notEmpty, notMarked, _⟩
          rcases alsoPlain.named other rfl with ⟨alsoNotEmpty, alsoNotMarked, _⟩
          rcases plain.absolute with ⟨rest, isPath⟩
          rcases alsoPlain.absolute with ⟨otherRest, isOther⟩
          have characters := congrArg String.toList same
          rw [toList_sourceKey notEmpty, toList_sourceKey alsoNotEmpty] at characters
          simp only at isPath isOther
          rw [isPath, isOther] at characters
          rcases marked_inj notMarked alsoNotMarked characters with ⟨names, rfl⟩
          rw [String.toList_inj.mp names, String.toList_inj.mp (isPath.trans isOther.symm)]

/-- Plain namespaces do not clash. -/
theorem separates_of_plain {visits : List Visit} (plain : ∀ visit ∈ visits, PlainPair visit.pair) :
    Separates Visit.key Visit.pair visits := by
  intro first isFirst second isSecond same
  rw [Visit.key_eq, Visit.key_eq] at same
  exact sourceKey_inj (plain first isFirst) (plain second isSecond) same

/-! ## The recorded command -/

abbrev Visiting (V D α : Type) := Client (HomeCall V) (HomeCall.Answer V D) Error (Unit × List Visit) α

/-- What is done with a file once its contents are hashed. -/
def fileOutcome (state : ClusterState) (options : IngestOptions) (embedder : EmbedderInfo)
    (path shown digest : String) (set : DocumentSet) : Command V D (DocumentSet × (Bool ⊕ Nat)) :=
  match set.sources.get? (sourceKey options.name path) with
  | some known => return (set, .inl (known.sha256 = digest))
  | none => do
      let answer : Except Error (List Passage) ← Client.call
        (HomeCall.readPassages path shown options.maxChars options.overlap)
      let passages ← Client.lift answer
      let count ← ingestPassages state.shardAddresses embedder.name passages options.name
      let next : DocumentSet :=
        { set with
          sources := set.sources.set (sourceKey options.name path) ⟨digest, count, options.name, shown⟩
          passages := set.passages + count }
      writeState { state with dataset := some next.toDataset }
      return (next, .inr count)

/-- `ingestFile`, with the visit recorded. -/
def recordFile (state : ClusterState) (options : IngestOptions) (embedder : EmbedderInfo) (path : String)
    (set : DocumentSet) : Visiting V D (DocumentSet × (Bool ⊕ Nat)) := do
  let shown : String ← Client.quietly (Client.call (HomeCall.displayPath path))
  let answer : Except Error String ← Client.quietly (Client.call (HomeCall.fingerprint path))
  let digest ← Client.quietly (Client.lift answer)
  let result ← Client.quietly (fileOutcome state options embedder path shown digest set)
  Client.note (· ++ [⟨options.name, path, digest, result.2⟩])
  return result

/-- Count a file in the report. -/
def IngestReport.counting (report : IngestReport) : Bool ⊕ Nat → IngestReport
  | .inl true => { report with unchanged := report.unchanged + 1 }
  | .inl false => { report with changed := report.changed + 1 }
  | .inr count => { report with added := report.added + count }

def recordLoop (state : ClusterState) (options : IngestOptions) (embedder : EmbedderInfo) :
    List String → DocumentSet → IngestReport → Visiting V D IngestReport
  | [], _, report => pure report
  | path :: rest, set, report => do
      let result ← recordFile state options embedder path set
      recordLoop state options embedder rest result.1 (report.counting result.2)

/-- The end of `ingest_files`: the shard of the namespace. -/
def tellShard (state : ClusterState) (options : IngestOptions) (report : IngestReport) :
    Command V D IngestReport :=
  match options.name with
  | none => return report
  | some name =>
      if name = "" then return report
      else do
        let shard ← Client.lift (shardForNamespace name state.servers.length)
        return { report with shard := some shard }

/-- `ingestFiles`, with the visits recorded. -/
def recordFiles (state : ClusterState) (replies : List StatusResponse) (paths : List String)
    (options : IngestOptions) : Visiting V D IngestReport := do
  let found ← Client.quietly (documentsOf state replies options.embedder)
  let files ← Client.quietly (findFiles paths)
  let report ← tryCatchThe Error (recordLoop state options found.1 files found.2 ⟨0, 0, 0, none⟩)
    fun error => throw (valueToUser (stopped "ingest" error))
  Client.quietly (tellShard state options report)

theorem recordFile_erases (state : ClusterState) (options : IngestOptions) (embedder : EmbedderInfo)
    (path : String) (set : DocumentSet) :
    Client.Erases (recordFile state options embedder path set)
      (ingestFile state options embedder path set : Command V D _) := by
  refine .bind (.quietly _) fun shown => .bind (.quietly _) fun answer => .bind (.quietly _) fun digest => ?_
  have erases : Client.Erases
    (Client.quietly (fileOutcome state options embedder path shown digest set) >>= fun result =>
      Client.note (fun visits : List Visit => visits ++ [⟨options.name, path, digest, result.2⟩]) >>=
        fun _ => pure result)
      (fileOutcome state options embedder path shown digest set >>= pure : Command V D _) :=
    .bind (.quietly _) fun result => .note_bind (.pure result)
  rw [bind_pure] at erases
  exact erases

theorem recordLoop_erases (state : ClusterState) (options : IngestOptions) (embedder : EmbedderInfo)
    (files : List String) (set : DocumentSet) (report : IngestReport) :
    Client.Erases (recordLoop state options embedder files set report)
      (ingestLoop state options embedder files set report : Command V D _) := by
  induction files generalizing set report with
  | nil => exact .pure report
  | cons path rest inductionHypothesis =>
      refine .bind (recordFile_erases state options embedder path set) fun result => ?_
      rcases result with ⟨next, (isSame | isSame) | count⟩
      · exact inductionHypothesis next _
      · exact inductionHypothesis next _
      · exact inductionHypothesis next _

theorem recordFiles_erases (state : ClusterState) (replies : List StatusResponse) (paths : List String)
    (options : IngestOptions) :
    Client.Erases (recordFiles state replies paths options)
      (ingestFiles state replies paths options : Command V D _) := by
  refine .bind (.quietly _) fun found => .bind (.quietly _) fun files => ?_
  refine .bind (.tryCatch (recordLoop_erases _ _ _ _ _ _) fun error => ?_) fun report => .quietly _
  exact fun _ _ => rfl

end Home
end VectorSearch
