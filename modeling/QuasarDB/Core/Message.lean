import QuasarDB.Core.Json

set_option autoImplicit false

/-! # Requests and responses

`core/request.cpp` and `core/response.cpp`: the two messages of a connection, and how a request is
read off the JSON value a client sends. -/

namespace QuasarDB.Core

structure Request where
  action : String := ""
  token : String := ""
  data : Json := .object []

namespace Request

/-- `Request::FromJsonObject`. -/
def fromJsonObject (json : Json) : Except String Request := do
  let action ← match json.find "action" with
    | some action => action.getString
    | none => pure ""
  let data := match json.find "data" with
    | some (.object members) => .object members
    | _ => .object []
  let token ← match json.find "token" with
    | some token => token.getString
    | none => pure ""
  return { action, data, token }

/-- `ToJsonObject`. -/
def toJsonObject (request : Request) : Json :=
  .object ([("action", .string request.action)] ++
    (if request.token = "" then [] else [("token", .string request.token)]) ++
    [("data", request.data)])

/-- A request with an object as its data is read back. -/
theorem fromJsonObject_toJsonObject {request : Request} {members : List (String × Json)}
    (h : request.data = .object members) : fromJsonObject request.toJsonObject = .ok request := by
  obtain ⟨action, token, data⟩ := request
  obtain rfl : data = .object members := h
  by_cases htoken : token = ""
  · simp [fromJsonObject, toJsonObject, htoken]
  · simp [fromJsonObject, toJsonObject, htoken]
    rfl

/-- `Request::Query`. -/
def query (request : Request) : Except String String := request.data.valueString "query" ""

/-- `Request::TaskId`. -/
def taskId (request : Request) : Option String :=
  match request.data.find "task_id" with
  | some (.string id) => some id
  | _ => none

end Request

/-! ## `RequestBuilder` -/

namespace RequestBuilder

def login (username password : String) : Request :=
  { action := "login",
    data := .object [("username", .string username), ("password", .string password)] }

def createSuperuser (username password : String) : Request :=
  { action := "login",
    data := .object [("username", .string username), ("password", .string password),
      ("create", .boolean true)] }

def handshake : Request := { action := "handshake" }

def query (sql : String) : Request := { action := "query", data := .object [("query", .string sql)] }

def checkTask (taskId : String) : Request :=
  { action := "check_task", data := .object [("task_id", .string taskId)] }

def telemetry : Request := { action := "telemetry" }

end RequestBuilder

structure Response where
  status : String
  message : String
  data : Json := .object []
  deriving Inhabited

namespace Response

def isError (response : Response) : Bool := response.status == "error"

def isSuccess (response : Response) : Bool := response.status == "success"

def isPending (response : Response) : Bool := response.status == "pending"

/-- `Success`. -/
def success (message : String) (data : Json := .object []) : Response :=
  { status := "success", message, data }

/-- `Pending`. -/
def pending (message : String) (data : Json := .object []) : Response :=
  { status := "pending", message, data }

/-- `Error`. -/
def error (message : String) (data : Json := .object []) : Response :=
  { status := "error", message, data }

/-- `ToJsonObject`. -/
def toJsonObject (response : Response) : Json :=
  .object [("status", .string response.status), ("message", .string response.message),
    ("data", response.data)]

/-- `FromJsonObject`, which throws nothing. -/
def fromJsonObject (json : Json) : Response :=
  let response : Except String Response := do
    let status ← match json.find "status" with
      | some status => status.getString
      | none => pure ""
    let message ← match json.find "message" with
      | some message => message.getString
      | none => pure ""
    return { status, message, data := (json.find "data").getD (.object []) }
  match response with
  | .ok response => response
  | .error what => .error ("Failed to parse response object: " ++ what)

theorem fromJsonObject_toJsonObject (response : Response) :
    fromJsonObject response.toJsonObject = response := by
  simp [fromJsonObject, toJsonObject]
  rfl

@[simp] theorem isError_error (m : String) (d : Json) : (error m d).isError = true := rfl

@[simp] theorem isSuccess_error (m : String) (d : Json) : (error m d).isSuccess = false := rfl

@[simp] theorem isSuccess_success (m : String) (d : Json) : (success m d).isSuccess = true := rfl

@[simp] theorem isError_success (m : String) (d : Json) : (success m d).isError = false := rfl

@[simp] theorem isSuccess_pending (m : String) (d : Json) : (pending m d).isSuccess = false := rfl

end Response

end QuasarDB.Core
