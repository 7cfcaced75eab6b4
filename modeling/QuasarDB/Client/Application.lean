import QuasarDB.Client.Reader
import QuasarDB.Core.Message
import QuasarDB.Library.Prog

set_option autoImplicit false

/-! # The client

`application.cpp` of the client: commands are read and sent to the server, one at a time, and what the server
answers is shown. The server is a parameter. A session keeps a log of what it sends and shows. Of `renderer.cpp`
there is what it asks of a table; how a response is drawn, and what the console asks for, are left out. -/

namespace QuasarDB.Client

open Core

/-! ## What is read -/

/-- `std::cin`. -/
structure Input where
  lines : List (List Char)
  /-- Whether the last line ends without a newline. -/
  unended : Bool := false
  eof : Bool := false

namespace Input

/-- `std::getline`. -/
def getline (input : Input) : Option (List Char) × Input :=
  match input.lines with
  | [] => (none, { input with eof := true })
  | [line] => (some line, { input with lines := [], eof := input.unended })
  | line :: lines => (some line, { input with lines })

/-- The loop of `ConsoleReader::ReadCommand` on the lines that are left: the command, the lines that it
    leaves, and whether it looked for one more. -/
def readLines : List Char → List (List Char) → Option (List Char) × List (List Char) × Bool
  | command, [] => (if command.isEmpty then none else some (trim command), [], true)
  | command, line :: lines =>
      if (trim line).isEmpty && command.isEmpty then (some [], lines, false)
      else
        let command := (if command.isEmpty then command else command ++ ['\n']) ++ line
        if endsStatement command then (some (trim command), lines, false) else readLines command lines

/-- `ConsoleReader::ReadCommand`. -/
def readCommand (input : Input) : Option (List Char) × Input :=
  let (command, lines, beyond) := readLines [] input.lines
  (command, { input with lines, eof := beyond || (lines.isEmpty && input.unended) })

end Input

/-- `FileReader::HasMore`. -/
def FileReader.hasMore (reader : FileReader) : Bool :=
  match reader.lines with
  | none => false
  | some lines => lines.any fun line => !(trim line).isEmpty

/-- `IReader`. -/
inductive Reader where
  | console
  | file (reader : FileReader)

/-! ## Words -/

/-- What `>>` skips, and where it stops. -/
def isSpace (c : Char) : Bool := c == ' ' || (9 ≤ c.toNat && c.toNat ≤ 13)

/-- `input >> word`. -/
def nextWord (text : List Char) : List Char × List Char :=
  let text := text.dropWhile isSpace
  (text.takeWhile fun c => !isSpace c, text.dropWhile fun c => !isSpace c)

/-- A `;` at the end of a word is taken away. -/
def withoutSemicolon (word : List Char) : List Char :=
  if word.getLast? = some ';' then word.dropLast else word

/-- The first word of a command, in upper case. -/
def action (command : List Char) : List Char :=
  withoutSemicolon ((nextWord command).1.map Char.toUpper)

/-- Quotes around a word are taken away. -/
def withoutQuotes (word : List Char) : List Char :=
  if 2 ≤ word.length ∧ word.head? = some '"' ∧ word.getLast? = some '"' then word.tail.dropLast else word

/-! ## The session -/

/-- How the exchange of a request for a response ends. -/
inductive Reply where
  | notSent
  | nothing
  | response (response : Response)

inductive Event where
  | exchange (request : Request) (reply : Reply)
  | logout
  | error (message : String)
  /-- `RenderResponse`. -/
  | shown (response : Response)
  /-- `RenderAsyncSubmitted`. -/
  | submitted (taskId : String)
  /-- `RenderPollingProgress`. -/
  | polling (spinner : Char) (attempt : Nat)

structure Config where
  host : String
  port : Nat
  /-- Empty for a session at the console. -/
  file : String

/-- The client, with the server that it is connected to. -/
structure Application (σ : Type) where
  token : String := ""
  input : Input
  reader : Reader := .console
  server : σ
  log : List Event := []

/-- What a session meets: the server, and `nlohmann::json::parse`. -/
structure World (σ : Type) where
  serve : Request → σ → Reply × σ
  /-- The value of a text, unless the parser throws. -/
  parse : String → Option Json

/-! ## What is drawn -/

namespace Renderer

/-- What `RenderTable` gets of the data of a response. A value that is no string is dumped, and is itself again
    when it is parsed. -/
def tableData (parse : String → Option Json) : Json → Option Json
  | .string text => if text = "" ∨ text = "\"\"" then none else parse text
  | data => some data

/-- `row[columns[i]]` finds no member for a column of the first row. A row before it that is no object throws,
    and `RenderTable` catches this. -/
def lacksColumn : Json → Bool
  | .array (.object columns :: rows) =>
      (rows.takeWhile Json.isObject).any fun row => columns.any fun column => !row.contains column.1
  | _ => false

/-- `RenderResponse` cannot draw this response. -/
def fails (parse : String → Option Json) (response : Response) : Bool :=
  !response.isError && (tableData parse response.data).any lacksColumn

/-- The assertion of `operator[]` on an object that is constant. -/
def missingKey : Failure := .assertion "it != m_data.m_value.object->end()"

end Renderer

namespace Application

variable {σ : Type} (world : World σ)

def note (event : Event) : Prog (Application σ) Unit :=
  modify fun app => { app with log := app.log ++ [event] }

/-- `RenderResponse`. -/
def renderResponse (response : Response) : Prog (Application σ) Unit := do
  note (.shown response)
  if Renderer.fails world.parse response then throw Renderer.missingKey

/-- `SendRequest` and, if it succeeds, `ReceiveResponse`. -/
def exchange (request : Request) : Prog (Application σ) Reply := do
  let app ← get
  let (reply, server) := world.serve request app.server
  set { app with server, log := app.log ++ [Event.exchange request reply] }
  return reply

/-- `SendAndReceive`. -/
def sendAndReceive (request : Request) : Prog (Application σ) (Option Response) := do
  match ← exchange world request with
  | .notSent => do
      note (.error "Failed to send request")
      return none
  | .nothing => return none
  | .response response => return some response

/-- `builder.Token(token_)`, when there is a token. -/
def withToken (request : Request) (token : String) : Request :=
  if token = "" then request else { request with token }

/-- The loop of `PollTask`, with the attempts that are left. -/
def pollFrom (taskId : String) (attempt : Nat) : Nat → Prog (Application σ) (Option Response)
  | 0 => return none
  | attempts + 1 => do
      let request := withToken (RequestBuilder.checkTask taskId) (← get).token
      match ← exchange world request with
      | .notSent => return none
      | .nothing => return none
      | .response response =>
          if response.isPending then
            note (.polling ("|/-\\".toList.getD (attempt % 4) '|') (attempt + 1))
            pollFrom taskId (attempt + 1) attempts
          else return some response

/-- `PollTask`. -/
def pollTask (taskId : String) : Prog (Application σ) (Option Response) := pollFrom world taskId 0 600

/-- `HandleAsyncResponse`. -/
def handleAsyncResponse (response : Response) : Prog (Application σ) Unit := do
  match response.data.find "task_id" with
  | none => note (.error "Server returned pending status without task_id")
  | some taskId => do
      let taskId ← Prog.ofExcept taskId.getString
      note (.submitted taskId)
      match ← pollTask world taskId with
      | none => note (.error ("Failed to poll task status: " ++ taskId))
      | some result => renderResponse world result

/-- `HandleLoginResponse`. -/
def handleLoginResponse (response : Response) : Prog (Application σ) Unit := do
  if response.isSuccess then
    match response.data.find "token" with
    | some (.string token) => modify fun app => { app with token }
    | _ => pure ()
  renderResponse world response

def getline : Prog (Application σ) (Option (List Char)) := do
  let (line, input) := (← get).input.getline
  modify fun app => { app with input }
  return line

/-- Two lines of `std::cin`, as a name and a password. -/
def getCredentials : Prog (Application σ) (Option (String × String)) := do
  match ← getline with
  | none => return none
  | some username =>
      match ← getline with
      | none => return none
      | some password => return some (.ofList username, .ofList password)

/-- `CreateSuperuserInteractively`. -/
def createSuperuserInteractively : Prog (Application σ) Bool := do
  match ← getCredentials with
  | none => return false
  | some (username, password) =>
      match ← exchange world (RequestBuilder.createSuperuser username password) with
      | .notSent => do
          note (.error "Failed to send superuser setup request")
          return false
      | .nothing => do
          note (.error "Failed to receive superuser setup response")
          return false
      | .response response => do
          handleLoginResponse world response
          return response.isSuccess

/-- `LoginInteractively`. -/
def loginInteractively : Prog (Application σ) Bool := do
  match ← getCredentials with
  | none => return false
  | some (username, password) =>
      match ← sendAndReceive world (RequestBuilder.login username password) with
      | none => do
          note (.error "Failed to receive login response")
          return false
      | some response => do
          handleLoginResponse world response
          return response.isSuccess

/-- `PrepareSession`. -/
def prepareSession : Prog (Application σ) Bool := do
  match ← sendAndReceive world RequestBuilder.handshake with
  | none => do
      note (.error "Failed to receive handshake response")
      return false
  | some response =>
      if response.isSuccess then
        if ← Prog.ofExcept (response.data.value Json.getBool "auth_required" false) then
          if ← Prog.ofExcept (response.data.value Json.getBool "setup_required" false) then
            createSuperuserInteractively world
          else loginInteractively world
        else return true
      else do
        renderResponse world response
        return false

/-- `BuildRequest`. -/
def buildRequest (token : String) (command : List Char) : Request :=
  if action command = "LOGIN".toList then
    let (username, rest) := nextWord (nextWord command).2
    let password := withoutQuotes (withoutSemicolon (nextWord rest).1)
    RequestBuilder.login (.ofList username) (.ofList password)
  else if action command = "TELEMETRY".toList then withToken RequestBuilder.telemetry token
  else withToken (RequestBuilder.query (.ofList command)) token

/-- What `Run` does with a command that is for the server. -/
def sendCommand (command : List Char) : Prog (Application σ) Unit := do
  let request := buildRequest (← get).token command
  match ← sendAndReceive world request with
  | none => note (.error "Failed to receive response")
  | some response =>
      if request.action = "login" then handleLoginResponse world response
      else if response.isPending then handleAsyncResponse world response
      else renderResponse world response

/-- A command that is not empty. It tells whether the loop goes on. -/
def runCommand (command : List Char) : Prog (Application σ) Bool := do
  if action command = "EXIT".toList then return false
  else if action command = "LOGOUT".toList then do
    modify fun app => { app with token := "" }
    note .logout
    renderResponse world (.success "Logged out")
    loginInteractively world
  else do
    sendCommand world command
    return true

/-- `HasMore`. -/
def hasMore (app : Application σ) : Bool :=
  match app.reader with
  | .console => !app.input.eof
  | .file reader => reader.hasMore

/-- `ReadCommand`. -/
def readCommand : Prog (Application σ) (Option (List Char)) := do
  let app ← get
  match app.reader with
  | .console => do
      let (command, input) := app.input.readCommand
      set { app with input }
      return command
  | .file reader => do
      let (command, reader) := reader.readCommand
      set { app with reader := .file reader }
      return command

/-- The loop of `Run`. Each round reads a line. -/
def runCommands : (fuel : Nat) → Prog (Application σ) Unit
  | 0 => throw .endless
  | fuel + 1 => do
      if (← get).hasMore then
        match ← readCommand with
        | none => return ()
        | some [] => runCommands fuel
        | some command =>
            if ← runCommand world command then runCommands fuel else return ()
      else return ()

/-- The lines that there are to read. -/
def lineCount (app : Application σ) : Nat :=
  app.input.lines.length +
    match app.reader with
    | .console => 0
    | .file reader => (reader.lines.getD []).length

/-- `Run`, with the content of the file if it opens, and whether the server takes the connection. -/
def run (config : Config) (content : Option (List Char)) (connects : Bool) :
    Prog (Application σ) Nat := do
  if config.file ≠ "" ∧ content.isNone then do
    note (.error ("Failed to open file: " ++ config.file))
    return 1
  else do
    if config.file ≠ "" then
      modify fun app => { app with reader := .file (FileReader.new content) }
    if !connects then do
      note (.error ("Failed to connect to server " ++ config.host ++ ":" ++ toString config.port))
      return 1
    else if ← prepareSession world then do
      runCommands world ((← get).lineCount + 1)
      return 0
    else return 1

end Application

end QuasarDB.Client
