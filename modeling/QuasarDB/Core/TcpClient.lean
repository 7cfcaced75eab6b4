import QuasarDB.Core.Message
import QuasarDB.Library.BinaryFile

set_option autoImplicit false

/-! # The TCP client

`socket.cpp` and `tcp_client.cpp` on a connection that is made: messages are JSON texts, each with its
size before it. What arrives comes in pieces, as `::recv` gives them; `nlohmann::json::parse` and
`dump` are parameters. -/

namespace QuasarDB.Core

/-- How `nlohmann::json::parse` ends. -/
inductive Parsed where
  | value (json : Json)
  | parseError
  | raises (what : String)

/-- How messages are written as text and read. -/
structure MessageText where
  parse : List UInt8 → Parsed
  dump : Json → List UInt8

/-- A connected socket. -/
structure Socket where
  isValid : Bool
  /-- What the calls of `::recv` will find, until the end of the stream. -/
  arriving : List (List UInt8)

namespace Socket

/-- The loop of `Send`. The numbers are what the calls of `::send` take; with the result, the bytes that
    were sent. -/
def sendLoop : List Nat → List UInt8 → Bool × List UInt8
  | _, [] => (true, [])
  | [], _ :: _ => (false, [])
  | taken :: later, byte :: data =>
      if taken = 0 then (false, [])
      else
        let rest := sendLoop later ((byte :: data).drop taken)
        (rest.1, (byte :: data).take taken ++ rest.2)

/-- The loop of `Recv`: the bytes that were asked for, if they all arrive, and what is still to come. -/
def recvLoop : Nat → List (List UInt8) → Option (List UInt8) × List (List UInt8)
  | 0, arriving => (some [], arriving)
  | _ + 1, [] => (none, [])
  | size + 1, piece :: arriving =>
      if piece.length = 0 then (none, arriving)
      else if piece.length ≤ size + 1 then
        let rest := recvLoop (size + 1 - piece.length) arriving
        (rest.1.map (piece ++ ·), rest.2)
      else (some (piece.take (size + 1)), piece.drop (size + 1) :: arriving)

/-- `Recv`. -/
def recv (size : Nat) : Prog Socket (Option (List UInt8)) := do
  let socket ← get
  if socket.isValid then
    let (data, arriving) := recvLoop size socket.arriving
    set { socket with arriving }
    return data
  else return none

end Socket

/-- `htonl`, in memory. -/
def networkBytes (n : UInt32) : List UInt8 := (wordBytes n).reverse

/-- `ntohl`, from memory. -/
def wordOfNetwork (bytes : List UInt8) : UInt32 := wordOfBytes bytes.reverse

namespace TcpClient

/-- `Send`: whether it was sent, and the bytes that were. Each of the two sends has its own calls of
    `::send`. -/
def send (text : MessageText) (header payload : List Nat) (request : Json) : Bool × List UInt8 :=
  let data := text.dump request
  if 2 ^ 32 - 1 < data.length then (false, [])
  else
    let sent := Socket.sendLoop header (networkBytes (.ofNat data.length))
    if sent.1 then
      let rest := Socket.sendLoop payload data
      (rest.1, sent.2 ++ rest.2)
    else sent

/-- `Receive`. -/
def receive (text : MessageText) : Prog Socket (Option Json) := do
  match ← Socket.recv 4 with
  | none => return none
  | some bytes =>
      let size := wordOfNetwork bytes
      if size = 0 then return none
      match ← Socket.recv size.toNat with
      | none => return none
      | some buffer =>
          match text.parse buffer with
          | .value json => return some json
          | .parseError => return none
          | .raises what => throw (.exception what)

/-- Successive calls of `Receive`. -/
def receives (text : MessageText) : Nat → Prog Socket (List (Option Json))
  | 0 => return []
  | count + 1 => do
      let message ← receive text
      let messages ← receives text count
      return message :: messages

/-- `ReceiveResponse`. -/
def receiveResponse (text : MessageText) : Prog Socket (Option Response) := do
  match ← receive text with
  | none => return none
  | some json => return some (Response.fromJsonObject json)

/-- Successive calls of `ReceiveResponse`. -/
def receiveResponses (text : MessageText) : Nat → Prog Socket (List (Option Response))
  | 0 => return []
  | count + 1 => do
      let response ← receiveResponse text
      let responses ← receiveResponses text count
      return response :: responses

end TcpClient

end QuasarDB.Core
