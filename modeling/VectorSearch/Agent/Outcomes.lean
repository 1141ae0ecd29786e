import VectorSearch.Lib.Regex

namespace VectorSearch

/-!
# Claimed outcomes

`claimed_outcome` of `ops.py`: the last line of a report that says how it went.
Whatever stands before it, a last line that is an outcome is read as that
outcome.
-/

namespace Agent

open Regex

/-- `OUTCOMES`. -/
def outcomes : List String := ["fixed", "needs a person", "nothing wrong"]

/-- `_OUTCOME_LINE`. -/
def outcomeLine : List Item :=
  [.lineStart, .nonWords, .text "outcome".toList, .nonWords, .text ":".toList, .nonWords,
    .group (outcomes.map String.toList), .nonWords, .lineEnd]

/-- `claimed_outcome`. -/
def claimedOutcome (letters : Letters) (report : String) : Option String :=
  (findAll letters outcomeLine 0 [] report.toList).getLast?.map fun found => letters.lower (String.ofList found)

theorem outcomeLine_ascii : ∀ item ∈ outcomeLine, item.Ascii := by
  intro item member
  simp only [outcomeLine, List.mem_cons, List.not_mem_nil, or_false] at member
  rcases member with rfl | rfl | rfl | rfl | rfl | rfl | rfl | rfl | rfl
  · exact trivial
  · exact trivial
  · exact (by decide : Ascii "outcome".toList)
  · exact trivial
  · exact (by decide : Ascii ":".toList)
  · exact trivial
  · exact (by decide : ∀ choice ∈ outcomes.map String.toList, Ascii choice)
  · exact trivial
  · exact trivial

/-- No character is a break, or is one in lower case. -/
def Unbroken (characters : List Char) : Prop := ∀ c ∈ characters, c.toLower ≠ '\n'

instance (characters : List Char) : Decidable (Unbroken characters) :=
  List.decidableBAll (fun c : Char => c.toLower ≠ '\n') characters

theorem outcomeLine_oneLine (letters : Letters) : ∀ item ∈ outcomeLine, item.OneLine letters := by
  have noBreak : ∀ {characters : List Char}, Ascii characters → Unbroken characters →
      ∀ c ∈ characters, letters.same c '\n' = false := by
    intro characters isAscii others c member
    rw [letters.same_ascii c '\n' (isAscii c member) (by decide)]
    exact beq_eq_false_iff_ne.mpr (others c member)
  intro item member
  have isAscii := outcomeLine_ascii item member
  simp only [outcomeLine, List.mem_cons, List.not_mem_nil, or_false] at member
  rcases member with rfl | rfl | rfl | rfl | rfl | rfl | rfl | rfl | rfl
  · exact trivial
  · exact trivial
  · exact noBreak isAscii (by decide : Unbroken _)
  · exact trivial
  · exact noBreak isAscii (by decide : Unbroken _)
  · exact trivial
  · have others : ∀ choice ∈ outcomes.map String.toList, Unbroken choice := by decide
    exact fun choice isChoice => noBreak (isAscii choice isChoice) (others choice isChoice)
  · exact trivial
  · exact trivial

/-- The characters of the last line of a report, but for the first. -/
def restOfLine (outcome : String) : List Char := "utcome: ".toList ++ outcome.toList

/-- The last line is read whole, from its beginning or from a break before it. -/
theorem outcomeLine_reads {outcome : String} (isOutcome : outcome ∈ outcomes) (before : List Char) :
    ∃ after, (run ascii outcomeLine [] ⟨'\n' :: before, 'O' :: restOfLine outcome⟩).head? =
      some (outcome.toList, after) ∧
      after.rest = [] := by
  simp only [outcomes, List.mem_cons, List.not_mem_nil, or_false] at isOutcome
  rcases isOutcome with rfl | rfl | rfl
  · exact ⟨_, rfl, rfl⟩
  · exact ⟨_, rfl, rfl⟩
  · exact ⟨_, rfl, rfl⟩

theorem outcomeLine_inside {outcome : String} (isOutcome : outcome ∈ outcomes) {back : List Item}
    (suffix : .nonWords :: back <:+ outcomeLine) (earlier before : List Char) :
    ∀ found ∈ run ascii back earlier ⟨before, 'O' :: restOfLine outcome⟩,
      found.1 = outcome.toList ∧ found.2.rest = [] := by
  have parts : back = outcomeLine.drop 2 ∨ back = outcomeLine.drop 4 ∨ back = outcomeLine.drop 6 ∨ back =
    outcomeLine.drop 8 := by
    simpa [outcomeLine, List.suffix_cons_iff] using suffix
  simp only [outcomes, List.mem_cons, List.not_mem_nil, or_false] at isOutcome
  rcases isOutcome with rfl | rfl | rfl <;> rcases parts with rfl | rfl | rfl | rfl <;> first
    | exact (fun _ impossible => absurd impossible List.not_mem_nil : ∀ found ∈ [], _)
    | exact List.forall_mem_singleton.mpr ⟨rfl, rfl⟩

theorem restOfLine_ascii {outcome : String} (isOutcome : outcome ∈ outcomes) :
    Ascii ('O' :: restOfLine outcome) := by
  revert outcome
  decide

/-- Whatever stands in front of it, the last line of a report is what it claims. -/
theorem claimedOutcome_last (letters : Letters) (front : String) {outcome : String}
    (isOutcome : outcome ∈ outcomes) :
    claimedOutcome letters (front ++ "\nOutcome: " ++ outcome) = some outcome := by
  have isAscii := restOfLine_ascii isOutcome
  have text : (front ++ "\nOutcome: " ++ outcome).toList = front.toList ++ '\n' :: 'O' ::
    restOfLine outcome := by
    rw [String.toList_append, String.toList_append, List.append_assoc]
    rfl
  have last : (findAll letters outcomeLine 0 [] (front.toList ++ '\n' :: 'O' :: restOfLine outcome)).getLast? =
      some outcome.toList := by
    refine findAll_getLast ?_ (outcomeLine_oneLine letters) ?_ ?_ ?_ front.toList [] 0 (Nat.zero_le _)
    · rw [letters.word_ascii 'O' (by decide)]
      rfl
    · intro back suffix earlier before
      rw [run_ascii earlier (fun item member => outcomeLine_ascii item
        (suffix.subset (List.mem_cons_of_mem _ member))) isAscii]
      exact outcomeLine_inside isOutcome suffix earlier before
    · intro before
      rw [run_ascii [] outcomeLine_ascii isAscii]
      exact outcomeLine_reads isOutcome before
    · intro before
      have nothing : Ascii [] := by decide
      rw [run_ascii [] outcomeLine_ascii nothing]
      refine List.flatMap_eq_nil_iff.mpr fun found member => ?_
      dsimp only [Item.run] at member
      split at member
      · cases List.mem_singleton.mp member
        rfl
      · cases member
  have lower : letters.lower outcome = outcome := by
    have short : ∀ outcome ∈ outcomes, Ascii outcome.toList ∧ outcome.toList.map Char.toLower =
      outcome.toList := by decide
    rw [letters.lower_ascii outcome (short outcome isOutcome).1, (short outcome isOutcome).2,
      String.ofList_toList]
  unfold claimedOutcome
  rw [text, last, Option.map_some, String.ofList_toList, lower]

end Agent
end VectorSearch
