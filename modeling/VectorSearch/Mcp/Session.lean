import VectorSearch.Lib.Stateful
import VectorSearch.Lib.Text
import VectorSearch.Mcp.Tools

namespace VectorSearch

/-!
# The MCP server

`McpServer` of `mcp.py`.  The handlers act on a world.  A session reads lines
and writes one line for each reply.
-/

namespace Mcp

/-- `PROTOCOL_VERSIONS`. -/
def protocolVersions : List String := ["2025-06-18", "2025-03-26", "2024-11-05"]

def parseError : Int := -32700
def invalidRequest : Int := -32600
def methodNotFound : Int := -32601
def invalidParams : Int := -32602

/-- `_RequestError`. -/
structure RequestError where
  code : Int
  message : String

/-- `_error`. -/
def errorReply (id : Json) (code : Int) (message : String) : Json :=
  .obj [("jsonrpc", .str "2.0"), ("id", id), ("error", .obj [("code", .int code), ("message", .str message)])]

/-- `_tool_result`. -/
def toolResult (text : String) (isError : Bool) : Json :=
  .obj [("content", .arr [.obj [("type", .str "text"), ("text", .str text)]]), ("isError", .bool isError)]

/-- `McpServer`; `W` is the world the handlers act on. -/
structure McpServer (W : Type) where
  name : String
  version : String
  tools : Dict String (Tool (StateM W))
  instructions : Option String
  onClose : Option (W → W)

namespace McpServer

variable {W : Type} (python : Python) (server : McpServer W)

/-- `McpServer(name, version, tools, instructions, on_close)`. -/
def create (name version : String) (tools : List (Tool (StateM W))) (instructions : Option String)
    (onClose : Option (W → W)) : McpServer W :=
  ⟨name, version, Dict.ofList (tools.map fun tool => (tool.name, tool)), instructions, onClose⟩

/-! ## One message -/

/-- A computation without effects, or its exception. -/
def lift {α : Type} : Except Error α → EStateM Error W α
  | .ok value => pure value
  | .error error => throw error

/-- What a tool does in the world of the server. -/
def act {α : Type} (action : StateM W α) : EStateM Error W α := fun world =>
  .ok (action world).1 (action world).2

/-- `_initialize`. -/
def answerInitialize (params : Json) : Except Error Json := do
  let requested ← params.get "protocolVersion"
  let version :=
    match requested with
    | some (.str requested) => if requested ∈ protocolVersions then requested else "2025-06-18"
    | _ => "2025-06-18"
  let result := [("protocolVersion", .str version),
    ("capabilities", .obj [("tools", .obj [("listChanged", .bool false)])]),
    ("serverInfo", .obj [("name", .str server.name), ("version", .str server.version)])]
  match server.instructions with
  | none => return .obj result
  | some instructions =>
      if instructions = "" then return .obj result
      else return .obj (result ++ [("instructions", .str instructions)])

/-- The answer to `tools/list`. -/
def toolList : Json :=
  .obj [("tools", .arr (server.tools.entries.map fun (_, tool) =>
    .obj [("name", .str tool.name), ("description", .str tool.description),
      ("inputSchema", tool.inputSchema)]))]

/-- `self.tools.get(name)`. -/
def tool? (name : Json) : Except Error (Option (Tool (StateM W))) :=
  match name with
  | .str name => .ok (server.tools.get? name)
  | other => if other.hashable then .ok none else .error .typeError

/-- `_call_tool`. -/
def callTool (params : Json) : EStateM Error W (Except RequestError Json) := do
  let name := (← lift (params.get "name")).getD .null
  match ← lift (server.tool? name) with
  | none => return .error ⟨invalidParams, s!"unknown tool: {← lift (python.shown name)}"⟩
  | some tool => do
      let arguments := Json.orEmpty (← lift (params.get "arguments"))
      let run ← lift (runTool python tool arguments)
      let (text, isError) ← act run
      return .ok (toolResult text isError)

/-- `_dispatch`. -/
def dispatch (method : String) (params : Json) : EStateM Error W (Except RequestError Json) := do
  if method = "initialize" then return .ok (← lift (server.answerInitialize params))
  else if method = "ping" then return .ok (.obj [])
  else if method = "tools/list" then return .ok server.toolList
  else if method = "tools/call" then server.callTool python params
  else return .error ⟨methodNotFound, s!"method not found: {method}"⟩

/-- A request with an id. -/
def answer (method : String) (id params : Json) : EStateM Error W Json := do
  match ← server.dispatch python method params with
  | .ok result => return .obj [("jsonrpc", .str "2.0"), ("id", id), ("result", result)]
  | .error error => return errorReply id error.code error.message

mutual

/-- `handle`. -/
def handle : Json → EStateM Error W (Option Json)
  | .arr [] => return some (errorReply .null invalidRequest "empty batch")
  | .arr (item :: items) => do
      let replies ← handleAll (item :: items)
      return if replies.isEmpty then none else some (.arr replies)
  | .obj fields =>
      match Dict.find "method" fields with
      | some (.str method) =>
          match Dict.find "id" fields with
          | none => return none
          | some id => return some (← server.answer python method id (Json.orEmpty (Dict.find "params" fields)))
      | _ => return some (errorReply ((Dict.find "id" fields).getD .null) invalidRequest
          "not a JSON-RPC request")
  | _ => return some (errorReply .null invalidRequest "not a JSON-RPC request")

/-- The replies to the members of a batch. -/
def handleAll : List Json → EStateM Error W (List Json)
  | [] => return []
  | message :: messages => do
      let reply ← handle message
      let replies ← handleAll messages
      return reply.toList ++ replies

end

/-! ## The session -/

/-- What a session acts on: the world, what was written so far, and whether the
server was closed. -/
structure Session (W : Type) where
  world : W
  written : List String
  closed : Bool

/-- What happens in the world alone. -/
def inWorld {α : Type} (action : EStateM Error W α) : EStateM Error (Session W) α := fun session =>
  match action session.world with
  | .ok value world => .ok value { session with world }
  | .error error world => .error error { session with world }

/-- A line of the input.  The texts of its message are sequences of Unicode scalar
values. -/
abbrev Line := { text : String // Json.surrogatesPaired text = true }

/-- The line of a reply. -/
def replyLine (reply : Json) : String := reply.dumps false ++ "\n"

/-- `if not line.strip()`. -/
def blank (line : String) : Bool := decide (Text.strip line.toList = [])

/-- The reply to a line. -/
def reply (line : Line) : EStateM Error W (Option Json) :=
  match Json.loads line.val with
  | none => return some (errorReply .null parseError "the message is not valid JSON")
  | some message => server.handle python message

/-- One round of the loop of `serve`.  `json.dumps` raises for an integer that
Python does not print. -/
def serveLine (line : Line) : EStateM Error (Session W) PUnit := do
  if blank line.val then return ⟨⟩
  else do
    match ← inWorld (server.reply python line) with
    | none => return ⟨⟩
    | some reply =>
        if reply.printable then
          modify fun session => { session with written := session.written ++ [replyLine reply] }
        else throw .tooManyDigits

/-- `close`. -/
def close (session : Session W) : Session W :=
  { session with world := (server.onClose.getD id) session.world, closed := true }

/-- `serve`. -/
def serve (lines : List Line) : EStateM Error (Session W) PUnit := fun session =>
  match lines.forM (server.serveLine python) session with
  | .ok value session => .ok value (server.close session)
  | .error error session => .error error (server.close session)

end McpServer
end Mcp
end VectorSearch
