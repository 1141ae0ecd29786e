import Mathlib.Data.List.ReduceOption
import VectorSearch.Lib.JsonLines
import VectorSearch.Lib.JsonReading
import VectorSearch.Mcp.Session

namespace VectorSearch

/-!
# Which messages a session survives

Every message has its answer, except that two accesses are not guarded: the
params of `initialize` and `tools/call` are used as a dict, and the name of a
tool as the key of one.  A session ends at the first line with such a message,
and answers all others.
-/

namespace Mcp

open Stateful

/-! ## Checking arguments does not fail -/

/-- A bound is only compared with a number. -/
theorem lessThan_ok {left right : Json} (first : (number? left).isSome) (second : (number? right).isSome) :
    ∃ less, lessThan left right = .ok less := by
  rcases Option.isSome_iff_exists.mp first with ⟨low, isLow⟩
  rcases Option.isSome_iff_exists.mp second with ⟨high, isHigh⟩
  refine ⟨low.less high, ?_⟩
  simp only [lessThan, isLow, isHigh]

theorem isInstance_number {type : JsonType} {value : Json} (numeric : type = .integer ∨ type = .number)
    (instanceOf : isInstance type value = true) : (number? value).isSome := by
  rcases numeric with rfl | rfl <;> cases value <;> first | rfl | cases instanceOf

namespace Python

variable (python : Python)

theorem shown_ok {value : Json} (printable : value.printable = true) : python.shown value =
    .ok (python.repr value) :=
  if_pos printable

theorem checkRequired_ok (fields : List (String × Json)) (names : List String) :
    ∃ problem, python.checkRequired fields (names.map .str) = .ok problem := by
  induction names with
  | nil => exact ⟨none, rfl⟩
  | cons name names inductionHypothesis =>
      rw [List.map_cons]
      unfold checkRequired
      split
      · exact inductionHypothesis
      · exact ⟨_, rfl⟩

theorem checkBound_ok {fields : List (String × Json)} (printable : (Json.obj fields).printable = true)
    {key : String} {breaks : Json → Except Error Bool} (problem : String)
    (compares : ∀ bound, Dict.find key fields = some bound → ∃ broken, breaks bound = .ok broken) :
    ∃ found, python.checkBound (.obj fields) key breaks problem = .ok found := by
  unfold checkBound
  simp only [bind, Except.bind, Json.get]
  cases here : Dict.find key fields with
  | none => exact ⟨none, rfl⟩
  | some bound =>
      rcases compares bound here with ⟨broken, ok⟩
      simp only [ok, python.shown_ok (Json.printable_find printable here)]
      split
      · exact ⟨_, rfl⟩
      · exact ⟨_, rfl⟩

theorem checkItems_ok {name : String} {fields : List (String × Json)} {value : Json}
    (typed : ∀ items, Dict.find "items" fields = some items → ∃ itemFields itemType, items = .obj itemFields ∧
      Dict.find "type" itemFields = some (.str (JsonType.name itemType))) :
    ∃ found, python.checkItems name (.obj fields) value = .ok found := by
  unfold checkItems
  simp only [bind, Except.bind, Json.get]
  cases here : Dict.find "items" fields with
  | none => exact ⟨none, rfl⟩
  | some items =>
      rcases typed items here with ⟨itemFields, itemType, isObject, isType⟩
      simp only [isObject, Json.index, isType, jsonType_name]
      cases value with
      | arr values =>
          dsimp only
          split
          · exact ⟨_, rfl⟩
          · exact ⟨_, rfl⟩
      | _ => exact ⟨_, rfl⟩

theorem checkArgument_ok (name : String) (value : Json) {rule : Json} (covered : CoveredRule rule)
    (printable : rule.printable = true) : ∃ found, python.checkArgument name rule value = .ok found := by
  rcases covered.typed with ⟨fields, type, rfl, isType, bounds, items⟩
  have index : Json.index (.obj fields) "type" = .ok (.str type.name) := by
    simp only [Json.index, isType]
  unfold checkArgument
  simp only [bind, Except.bind, index, jsonType_name]
  split
  · exact ⟨_, rfl⟩
  · rename_i fits
    have instanceOf : isInstance type value = true := by
      rw [Bool.or_eq_true, not_or, Bool.not_eq_true, Bool.not_eq_false'] at fits
      exact fits.1
    have compares : ∀ key ∈ ["minimum", "maximum"], ∀ bound, Dict.find key fields = some bound →
        (number? value).isSome ∧ (number? bound).isSome := by
      intro key isKey bound found
      have spec := bounds key isKey bound found
      exact ⟨isInstance_number spec.1 instanceOf, spec.2⟩
    rcases python.checkBound_ok printable s!"argument {python.repr (.str name)} must be at least"
      (fun bound found =>
        let numbers := compares "minimum" List.mem_cons_self bound found
        lessThan_ok numbers.1 numbers.2) with ⟨low, isLow⟩
    rcases python.checkBound_ok printable s!"argument {python.repr (.str name)} must be at most"
      (fun bound found =>
        let numbers := compares "maximum" (List.mem_cons_of_mem _ List.mem_cons_self) bound found
        lessThan_ok numbers.2 numbers.1) with ⟨high, isHigh⟩
    rw [isLow, isHigh]
    cases low with
    | some problem => exact ⟨_, rfl⟩
    | none =>
        cases high with
        | some problem => exact ⟨_, rfl⟩
        | none =>
            dsimp only
            split
            · rename_i isArray
              exact python.checkItems_ok (items isArray)
            · exact ⟨none, rfl⟩

theorem checkEach_ok {properties : List (String × Json)} (covered : ∀ rule ∈ properties, CoveredRule rule.2)
    (printable : (Json.obj properties).printable = true) (fields : List (String × Json)) :
    ∃ problem, python.checkEach properties fields = .ok problem := by
  induction fields with
  | nil => exact ⟨none, rfl⟩
  | cons field fields inductionHypothesis =>
      rcases field with ⟨name, value⟩
      unfold checkEach
      cases here : Dict.find name properties with
      | none => exact ⟨_, rfl⟩
      | some rule =>
          rcases python.checkArgument_ok name value
            (covered (name, rule) (Dict.find_mem name rule properties here))
            (Json.printable_find printable here) with ⟨problem, ok⟩
          simp only [bind, Except.bind, ok]
          cases problem with
          | some problem => exact ⟨_, rfl⟩
          | none => exact inductionHypothesis

/-- With a schema of the covered part, checking arguments raises nothing. -/
theorem checkArguments_ok {schema : Json} (covered : Covered schema) (arguments : Json) :
    ∃ problem, python.checkArguments schema arguments = .ok problem := by
  have printable := covered.printable
  rcases covered.shape with ⟨fields, rfl, rules, names⟩
  unfold checkArguments
  cases arguments with
  | obj given =>
      have properties : ∃ entries, ((Dict.find "properties" fields).getD (.obj [])) = .obj entries ∧
          (∀ rule ∈ entries, CoveredRule rule.2) ∧ (Json.obj entries).printable = true := by
        cases found : Dict.find "properties" fields with
        | none => exact ⟨[], rfl, (fun _ impossible => nomatch impossible), rfl⟩
        | some value =>
            rcases rules value found with ⟨entries, rfl, each⟩
            exact ⟨entries, rfl, each, Json.printable_find printable found⟩
      have required : ∃ texts : List String, ((Dict.find "required" fields).getD (.arr [])) =
        .arr (texts.map .str) := by
        cases found : Dict.find "required" fields with
        | none => exact ⟨[], rfl⟩
        | some value => exact names value found
      rcases properties with ⟨entries, areEntries, each, printed⟩
      rcases required with ⟨texts, areTexts⟩
      simp only [bind, Except.bind, Json.get, areEntries, areTexts]
      rcases python.checkRequired_ok given texts with ⟨problem, ok⟩
      rw [ok]
      cases problem with
      | some problem => exact ⟨_, rfl⟩
      | none => exact python.checkEach_ok each printed given
  | _ => exact ⟨_, rfl⟩

end Python

/-- Running a tool raises nothing. -/
theorem runTool_ok {m : Type → Type} [Monad m] (python : Python) (tool : Tool m) (arguments : Json) :
    ∃ run, runTool python tool arguments = .ok run := by
  rcases python.checkArguments_ok tool.covered arguments with ⟨problem, ok⟩
  unfold runTool
  simp only [bind, Except.bind, ok]
  cases problem with
  | some problem => exact ⟨_, rfl⟩
  | none =>
      cases arguments with
      | obj fields => exact ⟨_, rfl⟩
      | _ => cases ok

/-! ## What an answer is -/

/-- A reply object with the given id: a result or an error. -/
def IsReply (id reply : Json) : Prop :=
  ∃ key content, key ∈ ["result", "error"] ∧ reply = .obj [("jsonrpc", .str "2.0"), ("id", id), (key, content)]

mutual

/-- How a message is answered.  A request without an id gets no reply, and all
other messages get one with their id.  The members of a batch are answered each,
and the list of their replies is the reply. -/
inductive Answers : Json → Option Json → Prop
  | notification {fields : List (String × Json)} {method : String}
      (isMethod : Dict.find "method" fields = some (.str method)) (noId : Dict.find "id" fields = none) :
      Answers (.obj fields) none
  | request {fields : List (String × Json)} {method : String} {id reply : Json}
      (isMethod : Dict.find "method" fields = some (.str method)) (isId : Dict.find "id" fields = some id)
      (isReply : IsReply id reply) : Answers (.obj fields) (some reply)
  | noMethod {fields : List (String × Json)} {reply : Json}
      (noMethod : ∀ method, Dict.find "method" fields ≠ some (.str method))
      (isReply : IsReply ((Dict.find "id" fields).getD .null) reply) : Answers (.obj fields) (some reply)
  | noRequest {message reply : Json} (noArray : ∀ items, message ≠ .arr items)
      (noObject : ∀ fields, message ≠ .obj fields)
      (isReply : IsReply .null reply) : Answers message (some reply)
  | emptyBatch {reply : Json} (isReply : IsReply .null reply) : Answers (.arr []) (some reply)
  | silentBatch {items : List Json} (filled : items ≠ []) (each : AnswersAll items []) :
      Answers (.arr items) none
  | batch {items replies : List Json} (filled : replies ≠ []) (each : AnswersAll items replies) :
      Answers (.arr items) (some (.arr replies))

/-- The replies to the messages that get one, in order. -/
inductive AnswersAll : List Json → List Json → Prop
  | nil : AnswersAll [] []
  | cons {message : Json} {reply : Option Json} {messages replies : List Json} (first : Answers message reply)
      (rest : AnswersAll messages replies) : AnswersAll (message :: messages) (reply.toList ++ replies)

end

mutual

/-- The messages that get no reply. -/
def silent : Json → Bool
  | .arr [] => false
  | .arr (item :: items) => silent item && silentAll items
  | .obj fields =>
      match Dict.find "method" fields with
      | some (.str _) => (Dict.find "id" fields).isNone
      | _ => false
  | _ => false

def silentAll : List Json → Bool
  | [] => true
  | item :: items => silent item && silentAll items

end

/-- Whether the params of a method have the shape that the method relies on. -/
def acceptsParams (method : String) (params : Json) : Bool :=
  if method = "initialize" then params.isObject
  else if method = "tools/call" then
    match params with
    | .obj fields => ((Dict.find "name" fields).getD .null).hashable
    | _ => false
  else true

mutual

/-- Whether every request in a message has such params. -/
def accepts : Json → Bool
  | .arr items => acceptsAll items
  | .obj fields =>
      match Dict.find "method" fields with
      | some (.str method) =>
          match Dict.find "id" fields with
          | none => true
          | some _ => acceptsParams method (Json.orEmpty (Dict.find "params" fields))
      | _ => true
  | _ => true

def acceptsAll : List Json → Bool
  | [] => true
  | item :: items => accepts item && acceptsAll items

end

theorem isReply_error (id : Json) (code : Int) (message : String) : IsReply id (errorReply id code message) :=
  ⟨"error", _, List.mem_cons_of_mem _ List.mem_cons_self, rfl⟩

mutual

/-- No reply is given to the silent messages, and to no others. -/
theorem Answers.none_iff {message : Json} {reply : Option Json} :
    Answers message reply → (reply = none ↔ silent message = true)
  | .notification isMethod noId => by
      unfold silent
      rw [isMethod, noId]
      exact iff_of_true rfl rfl
  | .request isMethod isId _ => by
      unfold silent
      rw [isMethod, isId]
      exact iff_of_false (fun impossible => nomatch impossible) (fun impossible => nomatch impossible)
  | .noMethod noMethod _ => by
      unfold silent
      split
      · rename_i method isMethod
        exact absurd isMethod (noMethod method)
      · exact iff_of_false (fun impossible => nomatch impossible) (fun impossible => nomatch impossible)
  | .noRequest noArray noObject _ => by
      cases message with
      | arr items => exact absurd rfl (noArray items)
      | obj fields => exact absurd rfl (noObject fields)
      | _ => exact iff_of_false (fun impossible => nomatch impossible) (fun impossible => nomatch impossible)
  | .emptyBatch _ => iff_of_false (fun impossible => nomatch impossible) (fun impossible => nomatch impossible)
  | @Answers.silentBatch items filled each => by
      cases items with
      | nil => exact absurd rfl filled
      | cons item items => exact iff_of_true rfl (each.nil_iff.mp rfl)
  | @Answers.batch items _ filled each => by
      cases items with
      | nil => exact iff_of_false (fun impossible => nomatch impossible) (fun impossible => nomatch impossible)
      | cons item items =>
          exact iff_of_false (fun impossible => nomatch impossible) fun isSilent =>
            filled (each.nil_iff.mpr isSilent)

theorem AnswersAll.nil_iff {messages replies : List Json} :
    AnswersAll messages replies → (replies = [] ↔ silentAll messages = true)
  | .nil => iff_of_true rfl rfl
  | @AnswersAll.cons _ reply _ _ first rest => by
      have one := first.none_iff
      have others := rest.nil_iff
      unfold silentAll
      rw [Bool.and_eq_true, ← one, ← others, List.append_eq_nil_iff, Option.toList_eq_nil_iff]

end

namespace McpServer

variable {W : Type} (python : Python) (server : McpServer W)

/-- A computation without effects returns or raises. -/
theorem lift_ends {α : Type} {result : Except Error α} {world : W} {post : α → W → Prop} {failed : W → Prop}
    (gives : ∀ value, result = .ok value → post value world)
    (fails : ∀ error, result = .error error → failed world) :
    Ends (lift result : EStateM Error W α) world post failed := by
  cases result with
  | ok value => exact gives value rfl
  | error error => exact fails error rfl

/-- What a request gave, a result or an error, can be printed. -/
def Prints : Except RequestError Json → Prop
  | .ok result => result.printable = true
  | .error error => (Json.int error.code).printable = true

theorem invalidParams_prints (message : String) : Prints (.error ⟨invalidParams, message⟩) :=
  show (Json.int invalidParams).printable = true by decide

theorem methodNotFound_prints (message : String) : Prints (.error ⟨methodNotFound, message⟩) :=
  show (Json.int methodNotFound).printable = true by decide

theorem callTool_ends {params : Json} (printable : params.printable = true) (world : W) :
    Ends (server.callTool python params) world
      (fun outcome _ => acceptsParams "tools/call" params = true ∧ Prints outcome)
      fun _ => acceptsParams "tools/call" params = false := by
  unfold callTool
  cases params with
  | obj fields =>
      refine Ends.through (fun name after => name = Dict.find "name" fields)
        (lift_ends (fun name ok => (Except.ok.inj ok).symm) fun _ impossible => nomatch impossible) ?_
      intro name after isName
      rw [isName]
      have accepted : acceptsParams "tools/call" (.obj fields) =
        ((Dict.find "name" fields).getD .null).hashable := rfl
      rw [accepted]
      refine Ends.through (fun _ _ => ((Dict.find "name" fields).getD .null).hashable = true) ?_ ?_
      · unfold tool?
        cases (Dict.find "name" fields).getD .null <;> exact rfl
      · intro found after hashable
        cases found with
        | none =>
            have named : ((Dict.find "name" fields).getD .null).printable = true := by
              cases isName : Dict.find "name" fields with
              | none => rfl
              | some name => exact Json.printable_find printable isName
            dsimp only
            rw [python.shown_ok named]
            exact ⟨hashable, invalidParams_prints _⟩
        | some tool =>
            rcases runTool_ok python tool (Json.orEmpty (Dict.find "arguments" fields)) with ⟨run, ok⟩
            dsimp only
            refine Ends.through (fun arguments _ => arguments = Dict.find "arguments" fields)
              (lift_ends (fun arguments ok => (Except.ok.inj ok).symm) fun _ impossible =>
                nomatch impossible) ?_
            intro arguments after same
            rw [same, ok]
            exact ⟨hashable, rfl⟩
  | _ => exact rfl

theorem answerInitialize_object {params result : Json} (ok : server.answerInitialize params = .ok result) :
    acceptsParams "initialize" params = true ∧ Prints (.ok result) := by
  cases params with
  | obj fields =>
      refine ⟨rfl, ?_⟩
      unfold answerInitialize at ok
      simp only [bind, Except.bind, Json.get] at ok
      split at ok
      · cases ok
        rfl
      · split at ok
        · cases ok
          rfl
        · cases ok
          rfl
  | _ => cases ok

theorem answerInitialize_raises {params : Json} {error : Error}
    (raised : server.answerInitialize params = .error error) :
    acceptsParams "initialize" params = false := by
  cases params with
  | obj fields =>
      unfold answerInitialize at raised
      simp only [bind, Except.bind, Json.get] at raised
      split at raised
      · cases raised
      · split at raised
        · cases raised
        · cases raised
  | _ => rfl

theorem toolList_printable : server.toolList.printable = true := by
  refine Bool.and_eq_true_iff.mpr ⟨?_, rfl⟩
  change Json.printableItems (server.tools.entries.map _) = true
  rw [Json.printableItems_iff, List.forall_mem_map]
  intro entry member
  simp only [Json.printable, Json.printableFields, entry.2.covered.printable, Bool.and_true]

theorem dispatch_ends (method : String) {params : Json} (printable : params.printable = true) (world : W) :
    Ends (server.dispatch python method params) world
      (fun outcome _ => acceptsParams method params = true ∧ Prints outcome)
      fun _ => acceptsParams method params = false := by
  unfold dispatch
  by_cases isInitialize : method = "initialize"
  · rw [if_pos isInitialize, isInitialize]
    refine Ends.through (fun result _ => acceptsParams "initialize" params = true ∧ Prints (.ok result)) ?_
      fun _ _ holds => holds
    exact lift_ends (fun result ok => server.answerInitialize_object ok)
      fun error raised => server.answerInitialize_raises raised
  rw [if_neg isInitialize]
  by_cases isPing : method = "ping"
  · rw [if_pos isPing, isPing]
    exact Ends.pure ⟨rfl, rfl⟩
  rw [if_neg isPing]
  by_cases isList : method = "tools/list"
  · rw [if_pos isList, isList]
    exact Ends.pure ⟨rfl, server.toolList_printable⟩
  rw [if_neg isList]
  by_cases isCall : method = "tools/call"
  · rw [if_pos isCall, isCall]
    exact server.callTool_ends python printable world
  rw [if_neg isCall]
  refine Ends.pure ⟨?_, methodNotFound_prints _⟩
  unfold acceptsParams
  rw [if_neg isInitialize, if_neg isCall]

theorem errorReply_printable {id : Json} (printable : id.printable = true) {code : Int}
    (short : (Json.int code).printable = true) (message : String) :
    (errorReply id code message).printable = true := by
  simp only [errorReply, Json.printable, Json.printableFields, printable, Bool.true_and, Bool.and_true]
  exact short

/-- The answer to a request has its id. -/
theorem answer_ends (method : String) {id params : Json} (isId : id.printable = true)
    (printable : params.printable = true) (world : W) :
    Ends (server.answer python method id params) world
      (fun reply _ => acceptsParams method params = true ∧ IsReply id reply ∧ reply.printable = true)
      fun _ => acceptsParams method params = false := by
  apply Ends.bind (server.dispatch_ends python method printable world)
  rintro result after ⟨accepted, prints⟩
  cases result with
  | ok result =>
      refine ⟨accepted, ⟨"result", result, List.mem_cons_self, rfl⟩, ?_⟩
      change result.printable = true at prints
      simp only [Json.printable, Json.printableFields, isId, prints, Bool.and_true]
  | error error =>
      refine ⟨accepted, ⟨"error", _, List.mem_cons_of_mem _ List.mem_cons_self, rfl⟩, ?_⟩
      exact errorReply_printable isId prints error.message

/-- A reply that is given can be printed. -/
def PrintsReply : Option Json → Prop
  | none => True
  | some reply => reply.printable = true

theorem prints_notRequest (message : String) : PrintsReply (some (errorReply .null invalidRequest message)) :=
  errorReply_printable rfl (by decide) message

/-- `params` that are missing or falsy are replaced by an empty object. -/
theorem orEmpty_printable {fields : List (String × Json)} (printable : (Json.obj fields).printable = true)
    (key : String) : (Json.orEmpty (Dict.find key fields)).printable = true := by
  cases found : Dict.find key fields with
  | none => rfl
  | some value =>
      unfold Json.orEmpty
      dsimp only
      split
      · exact Json.printable_find printable found
      · rfl

mutual

/-- A message is answered, or one of its requests has params of another shape. -/
theorem handle_ends : ∀ message : Json, message.printable = true → ∀ world : W,
    Ends (server.handle python message) world
      (fun reply _ => accepts message = true ∧ Answers message reply ∧ PrintsReply reply)
      fun _ => accepts message = false
  | .arr [], _, world => by
      unfold handle
      exact ⟨rfl, .emptyBatch (isReply_error _ _ _), prints_notRequest _⟩
  | .arr (item :: items), printable, world => by
      unfold handle
      apply Ends.bind (handleAll_ends (item :: items) printable world)
      rintro replies after ⟨accepted, each, printed⟩
      apply Ends.pure
      cases replies with
      | nil => exact ⟨accepted, .silentBatch (List.cons_ne_nil _ _) each, trivial⟩
      | cons reply replies => exact ⟨accepted, .batch (List.cons_ne_nil _ _) each, printed⟩
  | .obj fields, printable, world => by
      by_cases named : ∃ method, Dict.find "method" fields = some (.str method)
      · rcases named with ⟨method, isMethod⟩
        unfold handle accepts
        rw [isMethod]
        dsimp only
        cases isId : Dict.find "id" fields with
        | none => exact ⟨rfl, .notification isMethod isId, trivial⟩
        | some id =>
            apply Ends.bind (server.answer_ends python method (Json.printable_find printable isId)
              (orEmpty_printable printable "params") world)
            rintro reply after ⟨accepted, isReply, printed⟩
            exact ⟨accepted, .request isMethod isId isReply, printed⟩
      · have other : ∀ method, Dict.find "method" fields ≠ some (.str method) :=
          fun method isMethod => named ⟨method, isMethod⟩
        have accepted : accepts (.obj fields) = true := by
          unfold accepts
          split
          · rename_i method isMethod
            exact absurd isMethod (other method)
          · rfl
        unfold handle
        split
        · rename_i method isMethod
          exact absurd isMethod (other method)
        · refine ⟨accepted, .noMethod other (isReply_error _ _ _), errorReply_printable ?_ (by decide) _⟩
          cases isId : Dict.find "id" fields with
          | none => rfl
          | some id => exact Json.printable_find printable isId
  | .null, _, _ =>
      ⟨rfl, .noRequest (fun _ same => nomatch same) (fun _ same => nomatch same) (isReply_error _ _ _),
        prints_notRequest _⟩
  | .bool _, _, _ =>
      ⟨rfl, .noRequest (fun _ same => nomatch same) (fun _ same => nomatch same) (isReply_error _ _ _),
        prints_notRequest _⟩
  | .int _, _, _ =>
      ⟨rfl, .noRequest (fun _ same => nomatch same) (fun _ same => nomatch same) (isReply_error _ _ _),
        prints_notRequest _⟩
  | .float _, _, _ =>
      ⟨rfl, .noRequest (fun _ same => nomatch same) (fun _ same => nomatch same) (isReply_error _ _ _),
        prints_notRequest _⟩
  | .str _, _, _ =>
      ⟨rfl, .noRequest (fun _ same => nomatch same) (fun _ same => nomatch same) (isReply_error _ _ _),
        prints_notRequest _⟩

theorem handleAll_ends : ∀ messages : List Json, Json.printableItems messages = true → ∀ world : W,
    Ends (server.handleAll python messages) world
      (fun replies _ => acceptsAll messages = true ∧ AnswersAll messages replies ∧
        Json.printableItems replies = true)
      fun _ => acceptsAll messages = false
  | [], _, _ => ⟨rfl, .nil, rfl⟩
  | message :: messages, printable, world => by
      have parts := Bool.and_eq_true_iff.mp printable
      unfold handleAll acceptsAll
      refine Ends.bind ((handle_ends message parts.1 world).imp (fun _ _ holds => holds) fun _ refused => ?_) ?_
      · rw [refused, Bool.false_and]
      · rintro reply after ⟨accepted, answers, printed⟩
        refine Ends.bind ((handleAll_ends messages parts.2 after).imp (fun _ _ holds => holds)
          fun _ refused => ?_) ?_
        · rw [refused, Bool.and_false]
        · rintro replies last ⟨acceptedAll, each, others⟩
          refine ⟨by rw [accepted, acceptedAll, Bool.and_true], .cons answers each, ?_⟩
          cases reply with
          | none => exact others
          | some given => exact Bool.and_eq_true_iff.mpr ⟨printed, others⟩

end

/-! ## Sessions -/

/-- Whether the message on a line, if there is one, is accepted. -/
def acceptsLine (line : Line) : Bool :=
  blank line.val ||
    match Json.loads line.val with
    | none => true
    | some message => accepts message

/-- The reply to a line: none to a blank one, an error to one that is no JSON. -/
def LineAnswered (line : Line) (reply : Option Json) : Prop :=
  if blank line.val then reply = none
  else
    match Json.loads line.val with
    | none => reply = some (errorReply .null parseError "the message is not valid JSON")
    | some message => Answers message reply

/-- All lines are read, and each reply is written as one line. -/
def Survives (lines : List Line) (session : Session W) : Prop :=
  ∃ replies world, List.Forall₂ LineAnswered lines replies ∧
    server.serve python lines session =
      .ok ⟨⟩ ⟨world, session.written ++ replies.reduceOption.map replyLine, true⟩ ∧
    ∀ reply ∈ replies.reduceOption, replyLine reply = reply.dumps false ++ "\n" ∧
      '\n' ∉ (reply.dumps false).toList

theorem inWorld_ends {α : Type} {action : EStateM Error W α} {session : Session W} {post : α → W → Prop}
    {failed : Prop} (ends : Ends action session.world post fun _ => failed) :
    Ends (inWorld action) session
      (fun value after => post value after.world ∧ after.written = session.written) fun _ => failed := by
  unfold Ends inWorld at *
  cases run : action session.world with
  | ok value world =>
      rw [run] at ends
      exact ⟨ends, rfl⟩
  | error error world =>
      rw [run] at ends
      exact ends

theorem reply_ends {line : Line} (filled : blank line.val = false) (world : W) :
    Ends (server.reply python line) world
      (fun reply _ => (acceptsLine line = true ∧ LineAnswered line reply) ∧ PrintsReply reply)
      fun _ => acceptsLine line = false := by
  unfold reply acceptsLine LineAnswered
  simp only [filled, Bool.false_or, Bool.false_eq_true, if_false]
  cases loaded : Json.loads line.val with
  | none => exact ⟨⟨rfl, rfl⟩, errorReply_printable rfl (by decide) _⟩
  | some message =>
      refine (server.handle_ends python message (Json.loads_printable loaded) world).imp ?_
        fun _ refused => refused
      rintro reply _ ⟨accepted, answers, printed⟩
      exact ⟨⟨accepted, answers⟩, printed⟩

theorem serveLine_ends (line : Line) (session : Session W) :
    Ends (server.serveLine python line) session
      (fun _ after => acceptsLine line = true ∧ ∃ reply, LineAnswered line reply ∧
        after.written = session.written ++ reply.toList.map replyLine)
      fun _ => acceptsLine line = false := by
  unfold serveLine
  cases isBlank : blank line.val with
  | true =>
      rw [if_pos rfl]
      refine Ends.pure ⟨?_, none, ?_, (List.append_nil _).symm⟩
      · unfold acceptsLine
        rw [isBlank]
        rfl
      · unfold LineAnswered
        rw [if_pos isBlank]
  | false =>
      rw [if_neg Bool.false_ne_true]
      apply Ends.bind (inWorld_ends (server.reply_ends python isBlank session.world))
      rintro reply after ⟨⟨⟨accepted, answered⟩, printed⟩, same⟩
      cases reply with
      | none => exact ⟨accepted, none, answered, same.trans (List.append_nil _).symm⟩
      | some reply =>
          change reply.printable = true at printed
          simp only [printed, if_true]
          exact ⟨accepted, some reply, answered, congrArg (· ++ [replyLine reply]) same⟩

theorem serveLines_ends (lines : List Line) (session : Session W) :
    Ends (lines.forM (server.serveLine python)) session
      (fun _ after => (∀ line ∈ lines, acceptsLine line = true) ∧ ∃ replies,
        List.Forall₂ LineAnswered lines replies ∧
        after.written = session.written ++ replies.reduceOption.map replyLine)
      fun _ => ∃ line ∈ lines, acceptsLine line = false := by
  refine Ends.forM
    (fun earlier (after : Session W) => (∀ line ∈ earlier, acceptsLine line = true) ∧ ∃ replies,
      List.Forall₂ LineAnswered earlier replies ∧
        after.written = session.written ++ replies.reduceOption.map replyLine)
    ⟨(fun _ impossible => nomatch impossible), [], .nil, (List.append_nil _).symm⟩ ?_
  rintro earlier line later whole reached ⟨accepted, replies, answered, written⟩
  refine (server.serveLine_ends python line reached).imp ?_ fun _ refused => ⟨line, by simp [whole], refused⟩
  rintro _ after ⟨accepts, reply, answers, writes⟩
  refine ⟨?_, replies ++ [reply], ?_, ?_⟩
  · intro other member
    rcases List.mem_append.mp member with before | here
    · exact accepted other before
    · exact List.mem_singleton.mp here ▸ accepts
  · exact List.rel_append answered (.cons answers .nil)
  · rw [writes, written, List.append_assoc, List.reduceOption_append, List.map_append]
    cases reply <;> rfl

/-- A session ends at a message that is not accepted. -/
theorem not_survives {lines : List Line} {line : Line} (member : line ∈ lines)
    (refused : acceptsLine line = false)
    (session : Session W) : ¬ server.Survives python lines session := by
  have ends := server.serveLines_ends python lines session
  unfold Ends at ends
  unfold Survives serve
  cases run : lines.forM (server.serveLine python) session with
  | ok value after =>
      rw [run] at ends
      exact absurd (ends.1 line member) (Bool.eq_false_iff.mp refused)
  | error error after =>
      rintro ⟨_, _, _, impossible, _⟩
      cases impossible

/-- A session answers every message and writes one line for each reply, exactly
when the params of each `initialize` are falsy or an object, and those of each
`tools/call` as well, with a name that is no list and no object. -/
theorem survives_iff :
    (∀ message, message.printable = true → ∀ world, (∃ reply after, server.handle python message world =
      .ok reply after ∧ Answers message reply ∧
      (reply = none ↔ silent message = true)) ↔ accepts message = true) ∧
    ∀ lines session, server.Survives python lines session ↔ ∀ line ∈ lines, acceptsLine line = true := by
  constructor
  · intro message printable world
    have ends := server.handle_ends python message printable world
    unfold Ends at ends
    cases run : server.handle python message world with
    | ok reply after =>
        rw [run] at ends
        rcases ends with ⟨accepted, answers, _⟩
        exact iff_of_true ⟨reply, after, rfl, answers, answers.none_iff⟩ accepted
    | error error after =>
        rw [run] at ends
        refine iff_of_false ?_ (Bool.eq_false_iff.mp ends)
        rintro ⟨_, _, impossible, _⟩
        cases impossible
  · intro lines session
    have ends := server.serveLines_ends python lines session
    unfold Ends at ends
    unfold Survives serve
    cases run : lines.forM (server.serveLine python) session with
    | ok value after =>
        rw [run] at ends
        rcases ends with ⟨accepted, replies, answered, written⟩
        refine iff_of_true ⟨replies, (server.close after).world, answered, ?_, fun reply _ => ⟨rfl, ?_⟩⟩
          accepted
        · rw [← written]
          rfl
        · exact Json.dumps_not_newline reply false
    | error error after =>
        rw [run] at ends
        rcases ends with ⟨line, member, refused⟩
        have stops := server.not_survives python member refused session
        unfold Survives serve at stops
        rw [run] at stops
        exact iff_of_false stops fun accepted => Bool.eq_false_iff.mp refused (accepted line member)

/-- A server without tools, and Python printing integers and texts alone. -/
def bareServer : McpServer Unit := create "vsearch" "1.0" [] none none

def barePython : Python := ⟨fun value => value.dumps false⟩

/-- A request to begin a session with its params in a list. -/
def positionalParams : Json :=
  .obj [("jsonrpc", .str "2.0"), ("id", .int 1), ("method", .str "initialize"), ("params", .arr [.int 1])]

/-- The request on a line. -/
def positionalLine : Line :=
  ⟨positionalParams.dumps false, by
    unfold Json.surrogatesPaired Json.dumps
    rw [String.toList_ofList]
    decide⟩

theorem positionalParams_refused : acceptsLine positionalLine = false := by
  have distinct : positionalParams.Distinct :=
    ⟨by decide, trivial, trivial, trivial, ⟨trivial, trivial⟩, trivial⟩
  have filled : blank (positionalParams.dumps false) = false := by
    apply decide_eq_false
    rw [Text.strip_eq_nil_iff, Json.dumps, String.toList_ofList]
    intro nothing
    have brace : '{' ∈ Text.ink (Json.write false positionalParams) :=
      List.mem_filter.mpr ⟨List.mem_cons_self, by decide⟩
    rw [nothing] at brace
    cases brace
  unfold acceptsLine positionalLine
  rw [filled, Json.loads_dumps false distinct (by decide)]
  rfl

/-- The session ends although the next message could be answered. -/
theorem positional_params_end :
    ¬ ∀ (lines : List Line) (session : Session Unit), bareServer.Survives barePython lines session :=
      fun survives =>
  bareServer.not_survives barePython List.mem_cons_self positionalParams_refused ⟨(), [], false⟩
    (survives [positionalLine] ⟨(), [], false⟩)

end McpServer

end Mcp
end VectorSearch
