import Mathlib.Data.List.Basic

namespace VectorSearch

/-!
# Regular expressions

A fragment of Python's `re`: a sequence of anchors, runs of characters that are
no word characters, texts and a group of texts, compiled to ignore case and to
match the anchors at every line.  A match is found as the backtracking matcher
finds it, each run as long as possible first, and all matches by going on behind
the last one.

The word characters and the letters that differ in case only are those of the
Unicode database, of which the part for ASCII is known.
-/

namespace Regex

/-- What Python takes from the Unicode database. -/
structure Letters where
  /-- `\w`. -/
  word : Char → Bool
  /-- A character of a pattern matches one of the text, up to case. -/
  same : Char → Char → Bool
  /-- `text.lower()`. -/
  lower : String → String
  word_ascii : ∀ c : Char, c.toNat < 128 → word c = (c.isAlphanum || c == '_')
  same_ascii : ∀ c d : Char, c.toNat < 128 → d.toNat < 128 → same c d = (c.toLower == d.toLower)
  lower_ascii : ∀ text : String, (∀ c ∈ text.toList, c.toNat < 128) → lower text =
    String.ofList (text.toList.map Char.toLower)

/-- ASCII alone. -/
def ascii : Letters where
  word := fun c => c.isAlphanum || c == '_'
  same := fun c d => c.toLower == d.toLower
  lower := fun text => String.ofList (text.toList.map Char.toLower)
  word_ascii := fun _ _ => rfl
  same_ascii := fun _ _ _ _ => rfl
  lower_ascii := fun _ _ => rfl

inductive Item where
  /-- `^` -/
  | lineStart
  /-- `$` -/
  | lineEnd
  /-- `\W*` -/
  | nonWords
  | text (literal : List Char)
  | group (choices : List (List Char))

/-- A place in a text: what is before it, the last character first, and what is
behind it. -/
structure Place where
  before : List Char
  rest : List Char

variable (letters : Letters)

def literal : List Char → Place → Option Place
  | [], place => some place
  | c :: cs, ⟨before, d :: rest⟩ => if letters.same c d then literal cs ⟨d :: before, rest⟩ else none
  | _ :: _, ⟨_, []⟩ => none

/-- Where a run can end, the longest first. -/
def nonWordsFrom (before : List Char) : List Char → List Place
  | [] => [⟨before, []⟩]
  | c :: rest =>
      if letters.word c then [⟨before, c :: rest⟩] else nonWordsFrom (c :: before) rest ++ [⟨before, c :: rest⟩]

/-- Where an item can end, in the order it is tried in, with what a group has
read. -/
def Item.run (item : Item) (place : Place) : List (Option (List Char) × Place) :=
  match item with
  | lineStart => if place.before.head?.all (· == '\n') then [(none, place)] else []
  | lineEnd => if place.rest.head?.all (· == '\n') then [(none, place)] else []
  | nonWords => (nonWordsFrom letters place.before place.rest).map fun after => (none, after)
  | text characters => (literal letters characters place).toList.map fun after => (none, after)
  | group choices => choices.filterMap fun choice =>
      (literal letters choice place).map fun after => (some (place.rest.take choice.length), after)

/-- The ways to match a sequence of items: what the group has read, and the end. -/
def run : List Item → List Char → Place → List (List Char × Place)
  | [], captured, place => [(captured, place)]
  | item :: items, captured, place =>
      (item.run letters place).flatMap fun found => run items (found.1.getD captured) found.2

/-- `findall`, with so many characters of the last match left. -/
def findAll (items : List Item) : Nat → List Char → List Char → List (List Char)
  | _, before, [] => ((run letters items [] ⟨before, []⟩).head?.map Prod.fst).toList
  | left + 1, before, c :: rest => findAll items left (c :: before) rest
  | 0, before, c :: rest =>
      match (run letters items [] ⟨before, c :: rest⟩).head? with
      | none => findAll items 0 (c :: before) rest
      | some (captured, after) => captured :: findAll items (rest.length - after.rest.length) (c :: before) rest

/-! ## What the items read -/

variable {letters}

theorem literal_reads {characters : List Char} {place after : Place}
    (found : literal letters characters place = some after) :
    ∃ read, place.rest = read ++ after.rest ∧ ∀ d ∈ read, ∃ c ∈ characters, letters.same c d = true := by
  induction characters generalizing place with
  | nil =>
      cases found
      exact ⟨[], rfl, fun _ impossible => nomatch impossible⟩
  | cons c rest inductionHypothesis =>
      rcases place with ⟨before, _ | ⟨d, behind⟩⟩
      · cases found
      · unfold literal at found
        split at found
        · rename_i same
          rcases inductionHypothesis found with ⟨read, whole, agree⟩
          refine ⟨d :: read, congrArg (d :: ·) whole, List.forall_mem_cons.mpr
            ⟨⟨c, List.mem_cons_self, same⟩, ?_⟩⟩
          intro other member
          rcases agree other member with ⟨e, isCharacter, isSame⟩
          exact ⟨e, List.mem_cons_of_mem _ isCharacter, isSame⟩
        · cases found

theorem nonWordsFrom_reads {before rest : List Char} {after : Place}
    (member : after ∈ nonWordsFrom letters before rest) :
    ∃ read, rest = read ++ after.rest ∧ ∀ c ∈ read, letters.word c = false := by
  induction rest generalizing before with
  | nil =>
      cases List.mem_singleton.mp member
      exact ⟨[], rfl, fun _ impossible => nomatch impossible⟩
  | cons c rest inductionHypothesis =>
      unfold nonWordsFrom at member
      split at member
      · cases List.mem_singleton.mp member
        exact ⟨[], rfl, fun _ impossible => nomatch impossible⟩
      · rename_i noWord
        rcases List.mem_append.mp member with longer | here
        · rcases inductionHypothesis longer with ⟨read, whole, none⟩
          exact ⟨c :: read, congrArg (c :: ·) whole, List.forall_mem_cons.mpr
            ⟨Bool.eq_false_iff.mpr noWord, none⟩⟩
        · cases List.mem_singleton.mp here
          exact ⟨[], rfl, fun _ impossible => nomatch impossible⟩

/-- An item leaves an end of the text behind it. -/
theorem Item.run_suffix {item : Item} {place : Place} {found : Option (List Char) × Place}
    (member : found ∈ item.run letters place) : found.2.rest <:+ place.rest := by
  have reads : ∀ {characters after}, literal letters characters place = some after →
    after.rest <:+ place.rest := by
    intro characters after found
    rcases literal_reads found with ⟨read, whole, _⟩
    exact ⟨read, whole.symm⟩
  cases item with
  | lineStart =>
      dsimp only [Item.run] at member
      split at member
      · cases List.mem_singleton.mp member
        exact List.suffix_rfl
      · cases member
  | lineEnd =>
      dsimp only [Item.run] at member
      split at member
      · cases List.mem_singleton.mp member
        exact List.suffix_rfl
      · cases member
  | nonWords =>
      rcases List.mem_map.mp member with ⟨after, isAfter, rfl⟩
      rcases nonWordsFrom_reads isAfter with ⟨read, whole, _⟩
      exact ⟨read, whole.symm⟩
  | text characters =>
      rcases List.mem_map.mp member with ⟨after, isAfter, rfl⟩
      exact reads (Option.mem_toList.mp isAfter)
  | group choices =>
      rcases List.mem_filterMap.mp member with ⟨choice, _, isFound⟩
      rcases Option.map_eq_some_iff.mp isFound with ⟨after, isAfter, rfl⟩
      exact reads isAfter

/-! ## ASCII -/

def Ascii (characters : List Char) : Prop := ∀ c ∈ characters, c.toNat < 128

instance (characters : List Char) : Decidable (Ascii characters) :=
  List.decidableBAll (fun c : Char => c.toNat < 128) characters

/-- An item whose texts are ASCII. -/
def Item.Ascii : Item → Prop
  | text characters => Regex.Ascii characters
  | group choices => ∀ choice ∈ choices, Regex.Ascii choice
  | _ => True

theorem literal_ascii {characters : List Char} {place : Place} (pattern : Ascii characters)
    (behind : Ascii place.rest) :
    literal letters characters place = literal ascii characters place := by
  induction characters generalizing place with
  | nil => rfl
  | cons c rest inductionHypothesis =>
      rcases place with ⟨before, _ | ⟨d, after⟩⟩
      · rfl
      · unfold literal
        rw [letters.same_ascii c d (pattern c List.mem_cons_self) (behind d List.mem_cons_self),
          inductionHypothesis (fun e isMember => pattern e (List.mem_cons_of_mem _ isMember))
            fun e isMember => behind e (List.mem_cons_of_mem _ isMember)]
        rfl

theorem nonWordsFrom_ascii {before rest : List Char} (behind : Ascii rest) :
    nonWordsFrom letters before rest = nonWordsFrom ascii before rest := by
  induction rest generalizing before with
  | nil => rfl
  | cons c rest inductionHypothesis =>
      unfold nonWordsFrom
      rw [letters.word_ascii c (behind c List.mem_cons_self),
        inductionHypothesis fun e isMember => behind e (List.mem_cons_of_mem _ isMember)]
      rfl

theorem Item.run_ascii {item : Item} {place : Place} (pattern : item.Ascii) (behind : Regex.Ascii place.rest) :
    item.run letters place = item.run ascii place := by
  cases item with
  | lineStart => rfl
  | lineEnd => rfl
  | nonWords => exact congrArg (List.map _) (nonWordsFrom_ascii behind)
  | text characters => exact congrArg (fun found => (Option.toList found).map _) (literal_ascii pattern behind)
  | group choices =>
      refine List.filterMap_congr fun choice member => ?_
      exact congrArg (Option.map _) (literal_ascii (pattern choice member) behind)

/-- On ASCII every Unicode database gives the same matches. -/
theorem run_ascii {items : List Item} (captured : List Char) {place : Place}
    (patterns : ∀ item ∈ items, item.Ascii)
    (behind : Ascii place.rest) : run letters items captured place = run ascii items captured place := by
  induction items generalizing captured place with
  | nil => rfl
  | cons item items inductionHypothesis =>
      unfold run
      rw [Item.run_ascii (patterns item List.mem_cons_self) behind]
      refine List.flatMap_congr fun found member => ?_
      refine inductionHypothesis _ (fun other isItem => patterns other (List.mem_cons_of_mem _ isItem)) ?_
      exact fun c isMember => behind c ((Item.run_suffix member).subset isMember)

/-! ## A text with a last line -/

/-- An item whose texts have no line break. -/
def Item.OneLine (letters : Letters) : Item → Prop
  | text characters => ∀ c ∈ characters, letters.same c '\n' = false
  | group choices => ∀ choice ∈ choices, ∀ c ∈ choice, letters.same c '\n' = false
  | _ => True

/-- What is read before the end of a line leaves all of the line behind it. -/
theorem literal_outside {characters front line : List Char} {place after : Place}
    (oneLine : ∀ c ∈ characters, letters.same c '\n' = false) (outside : place.rest = front ++ '\n' :: line)
    (found : literal letters characters place = some after) : ∃ rest, after.rest = rest ++ '\n' :: line := by
  rcases literal_reads found with ⟨read, whole, agree⟩
  rw [outside] at whole
  rcases List.append_eq_append_iff.mp whole with ⟨more, isRead, isLine⟩ | ⟨more, isFront, isRest⟩
  · cases more with
    | nil => exact ⟨[], isLine.symm⟩
    | cons d more =>
        cases (List.cons.inj isLine).1
        have member : '\n' ∈ read := isRead ▸ List.mem_append_right _ List.mem_cons_self
        rcases agree _ member with ⟨c, isCharacter, same⟩
        rw [oneLine c isCharacter] at same
        cases same
  · exact ⟨more, isRest⟩

/-- A run goes at most over the line break to the first word of the last line. -/
theorem nonWords_outside {front line : List Char} {first : Char} {place after : Place}
    (isWord : letters.word first = true) (outside : place.rest = front ++ '\n' :: first :: line)
    (member : after ∈ nonWordsFrom letters place.before place.rest) :
    (∃ rest, after.rest = rest ++ '\n' :: first :: line) ∨ after.rest = first :: line := by
  rcases nonWordsFrom_reads member with ⟨read, whole, none⟩
  rw [outside] at whole
  rcases List.append_eq_append_iff.mp whole with ⟨more, isRead, isLine⟩ | ⟨more, isFront, isRest⟩
  · cases more with
    | nil => exact Or.inl ⟨[], isLine.symm⟩
    | cons d more =>
        cases more with
        | nil => exact Or.inr (List.cons.inj isLine).2.symm
        | cons e more =>
            have isFirst := (List.cons.inj (List.cons.inj isLine).2).1
            have noWord := none e (isRead ▸ List.mem_append_right _ (List.mem_cons_of_mem _ List.mem_cons_self))
            rw [← isFirst, isWord] at noWord
            cases noWord
  · exact Or.inl ⟨more, isRest⟩

/-- A match that begins before the last line ends before it, or ends as it does
from the beginning of the line. -/
theorem run_outside {items : List Item} {line : List Char} {first : Char} (isWord : letters.word first = true)
    (oneLine : ∀ item ∈ items, item.OneLine letters) (good : List Char → Place → Prop)
    (inside : ∀ back, .nonWords :: back <:+ items → ∀ captured before,
      ∀ found ∈ run letters back captured ⟨before, first :: line⟩, good found.1 found.2)
    {captured : List Char} {place : Place} {front : List Char}
    (outside : place.rest = front ++ '\n' :: first :: line)
    {found : List Char × Place} (member : found ∈ run letters items captured place) :
    (∃ rest, found.2.rest = rest ++ '\n' :: first :: line) ∨ good found.1 found.2 := by
  induction items generalizing captured place front with
  | nil =>
      cases List.mem_singleton.mp member
      exact Or.inl ⟨front, outside⟩
  | cons item items inductionHypothesis =>
      rcases List.mem_flatMap.mp member with ⟨⟨group, after⟩, isAfter, later⟩
      have rest : ∀ {front : List Char}, after.rest = front ++ '\n' :: first :: line →
          (∃ rest, found.2.rest = rest ++ '\n' :: first :: line) ∨ good found.1 found.2 := fun outside =>
        inductionHypothesis (fun other isItem => oneLine other (List.mem_cons_of_mem _ isItem))
          (fun back suffix => inside back (suffix.trans (List.suffix_cons item items))) outside later
      have here := oneLine item List.mem_cons_self
      cases item with
      | lineStart =>
          dsimp only [Item.run] at isAfter
          split at isAfter
          · cases List.mem_singleton.mp isAfter
            exact rest outside
          · cases isAfter
      | lineEnd =>
          dsimp only [Item.run] at isAfter
          split at isAfter
          · cases List.mem_singleton.mp isAfter
            exact rest outside
          · cases isAfter
      | nonWords =>
          rcases List.mem_map.mp isAfter with ⟨place, isPlace, same⟩
          cases same
          rcases nonWords_outside isWord outside isPlace with ⟨more, isRest⟩ | isLine
          · exact rest isRest
          · rcases after with ⟨before, behind⟩
            cases isLine
            exact Or.inr (inside items List.suffix_rfl _ before found later)
      | text characters =>
          rcases List.mem_map.mp isAfter with ⟨place, isPlace, same⟩
          cases same
          rcases literal_outside here outside (Option.mem_toList.mp isPlace) with ⟨more, isRest⟩
          exact rest isRest
      | group choices =>
          rcases List.mem_filterMap.mp isAfter with ⟨choice, isChoice, isFound⟩
          rcases Option.map_eq_some_iff.mp isFound with ⟨place, isPlace, same⟩
          cases same
          rcases literal_outside (here choice isChoice) outside isPlace with ⟨more, isRest⟩
          exact rest isRest

/-- Where the last line matches by itself, its match is the last one. -/
theorem findAll_getLast {items : List Item} {line captured : List Char} {first : Char}
    (isWord : letters.word first = true) (oneLine : ∀ item ∈ items, item.OneLine letters)
    (inside : ∀ back, .nonWords :: back <:+ items → ∀ earlier before,
      ∀ found ∈ run letters back earlier ⟨before, first :: line⟩, found.1 = captured ∧ found.2.rest = [])
    (whole : ∀ before, ∃ after, (run letters items [] ⟨'\n' :: before, first :: line⟩).head? =
      some (captured, after) ∧
      after.rest = [])
    (silent : ∀ before, run letters items [] ⟨before, []⟩ = []) (front before : List Char) (left : Nat)
    (short : left ≤ front.length) :
    (findAll letters items left before (front ++ '\n' :: first :: line)).getLast? = some captured := by
  -- behind a match that reaches the end nothing is found
  have done : ∀ (rest before : List Char), findAll letters items rest.length before rest = [] := by
    intro rest
    induction rest with
    | nil =>
        intro before
        unfold findAll
        rw [silent]
        rfl
    | cons c rest inductionHypothesis => exact fun before => inductionHypothesis (c :: before)
  have atLine : ∀ before, findAll letters items 0 ('\n' :: before) (first :: line) = [captured] := by
    intro before
    rcases whole before with ⟨after, found, ends⟩
    unfold findAll
    rw [found]
    dsimp only
    rw [ends, List.length_nil, Nat.sub_zero, done]
  have reaches : ∀ (front : List Char) {before after earlier behind : List Char},
      (run letters items [] ⟨before, front ++ '\n' :: first :: line⟩).head? = some (earlier, ⟨after, behind⟩) →
        (∃ rest, behind = rest ++ '\n' :: first :: line) ∨ (earlier = captured ∧ behind = []) := by
    intro front before after earlier behind found
    exact run_outside isWord oneLine (fun earlier after => earlier = captured ∧ after.rest = []) inside rfl
      (List.mem_of_mem_head? found)
  induction front generalizing before left with
  | nil =>
      cases Nat.le_zero.mp short
      rw [List.nil_append]
      unfold findAll
      split
      · rw [atLine]
        rfl
      · rename_i earlier after found
        rcases after with ⟨after, behind⟩
        rcases reaches [] found with ⟨rest, rfl⟩ | ⟨rfl, rfl⟩
        · have none : (first :: line).length - (rest ++ '\n' :: first :: line).length = 0 := by
            simp only [List.length_append, List.length_cons]
            omega
          rw [none, atLine]
          rfl
        · rw [List.length_nil, Nat.sub_zero, done]
          rfl
  | cons c front inductionHypothesis =>
      cases left with
      | succ left => exact inductionHypothesis (c :: before) left (Nat.le_of_succ_le_succ short)
      | zero =>
          rw [List.cons_append]
          unfold findAll
          split
          · exact inductionHypothesis (c :: before) 0 (Nat.zero_le _)
          · rename_i earlier after found
            rcases after with ⟨after, behind⟩
            rcases reaches (c :: front) found with ⟨rest, rfl⟩ | ⟨rfl, rfl⟩
            · have fewer : (front ++ '\n' :: first :: line).length - (rest ++ '\n' :: first ::
                line).length ≤ front.length := by
                rw [List.length_append, List.length_append]
                omega
              rw [List.getLast?_cons, inductionHypothesis (c :: before) _ fewer]
              rfl
            · rw [List.length_nil, Nat.sub_zero, done]
              rfl

end Regex
end VectorSearch
