import QuasarDB.Core.Proofs.Framing
import QuasarDB.Server.Router
import QuasarDB.Storage.Application
import QuasarDB.Storage.Proofs.Canonical
import QuasarDB.Storage.Proofs.Statements

set_option autoImplicit false

/-! # Sessions with a storage node

What the router sends for statements that the parser can produce arrives as these statements, is carried out in
its order, and each response comes back as it was made, however the bytes of both directions are cut. -/

namespace QuasarDB.Storage

open Prog Server Core

/-! ## One request -/

namespace Shard

variable {env : NodeEnv} {quotient : Quotient} {s : Statement} {shard : Shard Table}

theorem carryOut_canonical (h : ∀ l ∈ s.literals, l.Kept) :
    carryOut env quotient s.canonical = carryOut env quotient s := by
  have hexecute := Executor.execute_canonical env.toExecutorEnv quotient h
  cases s with
  | createTable ref columns =>
      change create env ref (columns.map ColumnDef.canonical) = _
      rw [create, toSchema_canonical h]
      rfl
  | insert ref columns values =>
      simp only [carryOut, Statement.canonical] at hexecute ⊢
      rw [hexecute]
  | update ref assignments whereClause =>
      simp only [carryOut, Statement.canonical] at hexecute ⊢
      rw [hexecute]
  | delete ref whereClause =>
      simp only [carryOut, Statement.canonical] at hexecute ⊢
      rw [hexecute]
  | select selectAll items ref whereClause =>
      simp only [carryOut, Statement.canonical] at hexecute ⊢
      rw [hexecute]
  | createUser username password => rfl
  | _ => rfl

/-- The statement of a request is the one that was sent. -/
theorem processRequest_of_parsed (hparsed : s.Parsed) (hfit : ∀ l ∈ s.literals, l.FitsInt32) :
    ∃ request members, Router.executeAstRequest s = .ok request ∧ request.data = .object members ∧
      processRequest env quotient request =
        Prog.catchException (carryOut env quotient s) fun what => return .error what := by
  obtain ⟨json, hencode, hdecode⟩ := statement_roundTrips hparsed hfit
  refine ⟨{ action := "execute_ast", data := .object [("ast_root", json)] }, _, ?_, rfl, ?_⟩
  · rw [Router.executeAstRequest, hencode]
    rfl
  · have hjson : processRequest env quotient
        { action := "execute_ast", data := .object [("ast_root", json)] } =
          executeJson env quotient json := rfl
    rw [hjson, executeJson, hdecode, ← carryOut_canonical (hparsed.kept_literals hfit)]
    rfl

/-- With the tables of `Table`, `CREATE TABLE` is what the node of any kind of tables does. -/
theorem run_create {ops : TableOps Table} (hcreate : ops.create = Table.new) (ref : TableRef)
    (columns : List ColumnDef) :
    Prog.catchException (create env ref columns) (fun what => return .error what) shard =
      .ok (shard.createTable ops env.construction ref columns).1
        (shard.createTable ops env.construction ref columns).2 := by
  obtain ⟨table, unopened, dataLeft⟩ := shard
  cases table with
  | some table => rfl
  | none =>
      unfold create createTable Construction.prepare
      rw [hcreate]
      cases FileFailure.raise env.construction.directory with
      | error what => rfl
      | ok _ =>
          cases toSchema columns with
          | error what => rfl
          | ok schema =>
              cases FileFailure.raise env.construction.files with
              | error what => rfl
              | ok _ =>
                  cases dataLeft with
                  | true => rfl
                  | false =>
                      cases hsave : env.construction.saveSchema schema with
                      | error what => simp [Prog.catchException, hsave]
                      | ok _ =>
                          cases env.construction.indexes with
                          | none =>
                              simp [Prog.catchException, hsave, FileFailure.raise]
                          | some failure =>
                              simp [Prog.catchException, hsave, FileFailure.raise]

theorem run_drop (ref : TableRef) :
    drop ref shard = .ok (shard.dropTable ref).1 (shard.dropTable ref).2 := by
  unfold drop dropTable
  rw [run_get_bind]
  cases shard.table with
  | none => rfl
  | some table =>
      dsimp only
      split <;> rfl

theorem run_of_serve {delivery : Delivery} {response : Response} {shard' : Shard Table}
    (h : serve quotient delivery shard = some (response, shard')) :
    Prog.catchException (carryOut delivery.env quotient delivery.statement)
      (fun what => return .error what) shard = .ok response shard' := by
  unfold serve at h
  split at h
  · rename_i hrun
    cases h
    exact hrun
  · cases h

end Shard

/-! ## The connection -/

namespace Application

variable {text : MessageText} {quotient : Quotient} {α : Type}

theorem run_onShard {x : Prog (Shard Table) α} {a : α} {application : Application} {shard : Shard Table}
    (h : x application.shard = .ok a shard) :
    onShard x application = .ok a { application with shard } := by
  rw [onShard, run_on, h]

theorem run_onConnection {x : Prog Connection α} {a : α} {application : Application}
    {connection : Connection} (h : x application.connection = .ok a connection) :
    onConnection x application = .ok a { application with connection } := by
  rw [onConnection, run_on, h]

/-- The bytes of the request for a statement. -/
def requestBytes (text : MessageText) (statement : Statement) : List UInt8 :=
  match Router.executeAstRequest statement with
  | .ok request => TcpClient.frame text request.toJsonObject
  | .error _ => []

def responseBytes (text : MessageText) (response : Response) : List UInt8 :=
  TcpClient.frame text response.toJsonObject

/-- The statement is one that the parser can produce, its integers fit, and its request can be read. -/
structure Sendable (text : MessageText) (statement : Statement) : Prop where
  parsed : statement.Parsed
  fits : ∀ l ∈ statement.literals, l.FitsInt32
  readable : ∀ request, Router.executeAstRequest statement = .ok request →
    TcpClient.Readable text request.toJsonObject

/-- The calls of `::send` take the whole response. -/
def Taken (text : MessageText) (takes : List Nat × List Nat) (response : Response) : Prop :=
  (TcpClient.send text takes.1 takes.2 response.toJsonObject).1 = true

instance (takes : List Nat × List Nat) (response : Response) : Decidable (Taken text takes response) :=
  inferInstanceAs (Decidable (_ = true))

theorem run_receiveRequest {connection : Connection} {request : Request} {members : List (String × Json)}
    {more : List UInt8} (hempty : text.parse [] = .parseError) (hdata : request.data = .object members)
    (hreadable : TcpClient.Readable text request.toJsonObject)
    (hsocket : connection.socket.Carries (TcpClient.frame text request.toJsonObject ++ more)) :
    ∃ socket, Connection.receiveRequest text connection =
        .ok (some request) { connection with socket } ∧ socket.Carries more := by
  obtain ⟨socket, hrun, hmore⟩ := TcpClient.run_receive hempty hreadable hsocket
  refine ⟨socket, ?_, hmore⟩
  have hon : Prog.on Connection.socket (fun socket connection => { connection with socket })
      (TcpClient.receive text) connection = .ok (some request.toJsonObject) { connection with socket } := by
    rw [run_on, hrun]
  rw [Connection.receiveRequest, bind_ok hon]
  simp only [Request.fromJsonObject_toJsonObject hdata]
  rfl

theorem run_sendResponse {connection : Connection} {response : Response} {takes : List Nat × List Nat}
    {later : List (List Nat × List Nat)} (hvalid : connection.socket.isValid = true)
    (htakes : connection.takes = takes :: later) (htaken : Taken text takes response) :
    Connection.sendResponse text response connection =
      .ok true { connection with takes := later, sent := connection.sent ++ responseBytes text response } := by
  have hbytes : (TcpClient.send text takes.1 takes.2 response.toJsonObject).2 = responseBytes text response :=
    TcpClient.send_eq htaken
  rw [Connection.sendResponse, run_get_bind, if_pos hvalid, htakes]
  simp only [List.headD_cons, List.tail_cons, hbytes]
  rw [htaken]
  rfl

/-- A client that has sent requests. -/
structure Attached (text : MessageText) (application : Application) (statements : List Statement)
    (responses : List Response) : Prop where
  socket : application.connection.socket.Carries (statements.flatMap (requestBytes text))
  takes : List.Forall₂ (Taken text) application.connection.takes responses

/-- One round of the loop. -/
theorem run_round {delivery : Delivery} (envs : List NodeEnv) {shard shard' : Shard Table}
    {connection : Connection} {response : Response} {statements : List Statement} {responses : List Response}
    (hempty : text.parse [] = .parseError) (hsendable : Sendable text delivery.statement)
    (hserve : Shard.serve quotient delivery shard = some (response, shard'))
    (hattached : Attached text ⟨shard, connection⟩ (delivery.statement :: statements)
      (response :: responses)) :
    ∃ connection', Attached text ⟨shard', connection'⟩ statements responses ∧
      connection'.sent = connection.sent ++ responseBytes text response ∧
      serveConnection quotient text (delivery.env :: envs) ⟨shard, connection⟩ =
        serveConnection quotient text envs ⟨shard', connection'⟩ := by
  obtain ⟨hsocket, htakes⟩ := hattached
  obtain ⟨hparsed, hfits, hreadable⟩ := hsendable
  obtain ⟨request, members, hrequest, hdata, hprocess⟩ :=
    @Shard.processRequest_of_parsed delivery.env quotient _ hparsed hfits
  have hbytes : requestBytes text delivery.statement = TcpClient.frame text request.toJsonObject := by
    rw [requestBytes, hrequest]
  rw [List.flatMap_cons, hbytes] at hsocket
  obtain ⟨socket, hreceive, hmore⟩ := run_receiveRequest hempty hdata (hreadable request hrequest) hsocket
  cases htaken : connection.takes with
  | nil =>
      rw [htaken] at htakes
      cases htakes
  | cons takes later =>
      rw [htaken] at htakes
      obtain ⟨htake, hlater⟩ := List.forall₂_cons.1 htakes
      refine ⟨{ connection with socket, takes := later, sent := connection.sent ++ responseBytes text response },
        ⟨hmore, hlater⟩, rfl, ?_⟩
      have hfirst : onConnection (Connection.receiveRequest text) ⟨shard, connection⟩ = .ok (some request) _ :=
        run_onConnection hreceive
      have hcarried : onShard (Shard.processRequest delivery.env quotient request)
          ⟨shard, { connection with socket }⟩ = .ok response _ :=
        run_onShard ((congrFun hprocess shard).trans (Shard.run_of_serve hserve))
      have hsent : onConnection (Connection.sendResponse text response)
          ⟨shard', { connection with socket }⟩ = .ok true _ :=
        run_onConnection (run_sendResponse hmore.isValid htaken htake)
      rw [serveConnection, bind_ok hfirst]
      dsimp only
      rw [bind_ok hcarried, bind_ok hsent]
      rfl

/-- Nothing more arrives. -/
theorem run_last_round (env : NodeEnv) {application : Application}
    (hsocket : application.connection.socket.Carries []) :
    ∃ connection, serveConnection quotient text [env] application =
      .ok () { application with connection } ∧ connection.sent = application.connection.sent := by
  obtain ⟨socket, hshort, -⟩ := Socket.run_recv_short hsocket (show 0 < 4 by decide)
  have hreceive : Connection.receiveRequest text application.connection =
      .ok none { application.connection with socket } := by
    have hnone : TcpClient.receive text application.connection.socket = .ok none socket := by
      rw [TcpClient.receive, bind_ok hshort]
      rfl
    have hon : Prog.on Connection.socket (fun socket connection => { connection with socket })
        (TcpClient.receive text) application.connection =
          .ok none { application.connection with socket } := by
      rw [run_on, hnone]
    rw [Connection.receiveRequest, bind_ok hon]
    rfl
  refine ⟨{ application.connection with socket }, ?_, rfl⟩
  rw [serveConnection, bind_ok (run_onConnection hreceive)]
  rfl

/-- The loop on all requests of a client. -/
theorem run_serveConnection {deliveries : List Delivery} {responses : List Response}
    {shard shard' : Shard Table} {connection : Connection} (hempty : text.parse [] = .parseError)
    (hsendable : ∀ delivery ∈ deliveries, Sendable text delivery.statement)
    (hserve : (Shard.serve quotient).run deliveries shard = some (responses, shard'))
    (hattached : Attached text ⟨shard, connection⟩ (deliveries.map Delivery.statement) responses)
    (last : NodeEnv) :
    ∃ connection', serveConnection quotient text (deliveries.map Delivery.env ++ [last]) ⟨shard, connection⟩ =
        .ok () ⟨shard', connection'⟩ ∧
      connection'.sent = connection.sent ++ responses.flatMap (responseBytes text) := by
  induction deliveries generalizing shard connection responses with
  | nil =>
      cases hserve
      obtain ⟨connection', hrun, hsent⟩ :=
        @run_last_round text quotient last ⟨shard', connection⟩ hattached.socket
      exact ⟨connection', hrun, hsent.trans (List.append_nil _).symm⟩
  | cons delivery deliveries ih =>
      obtain ⟨hfirst, hothers⟩ := List.forall_mem_cons.1 hsendable
      rw [Service.run, Option.bind_eq_some_iff] at hserve
      obtain ⟨⟨response, middle⟩, hone, hrest⟩ := hserve
      obtain ⟨⟨later, _⟩, hlater, heq⟩ := Option.map_eq_some_iff.1 hrest
      cases heq
      obtain ⟨connection₁, hattached₁, hsent₁, hround⟩ :=
        run_round (deliveries.map Delivery.env ++ [last]) hempty hfirst hone hattached
      obtain ⟨connection', hrun, hsent⟩ := ih hothers hlater hattached₁
      refine ⟨connection', hround.trans hrun, ?_⟩
      rw [hsent, hsent₁, List.append_assoc]
      rfl

theorem run_receiveResponses {responses : List Response} {client : Socket}
    (hempty : text.parse [] = .parseError)
    (hreadable : ∀ response ∈ responses, TcpClient.Readable text response.toJsonObject)
    (hclient : client.Carries (responses.flatMap (responseBytes text))) :
    ∃ client', TcpClient.receiveResponses text responses.length client =
      .ok (responses.map some) client' := by
  induction responses generalizing client with
  | nil => exact ⟨client, rfl⟩
  | cons response responses ih =>
      obtain ⟨hfirst, hothers⟩ := List.forall_mem_cons.1 hreadable
      obtain ⟨middle, hreceive, hmore⟩ := TcpClient.run_receive hempty hfirst hclient
      obtain ⟨client', hrest⟩ := ih hothers hmore
      have hresponse : TcpClient.receiveResponse text client = .ok (some response) middle := by
        rw [TcpClient.receiveResponse, bind_ok hreceive]
        simp only [Response.fromJsonObject_toJsonObject]
        rfl
      refine ⟨client', ?_⟩
      rw [List.length_cons, TcpClient.receiveResponses, bind_ok hresponse, bind_ok hrest]
      rfl

/-- The statements of a client that the parser can produce are carried out as they are, one after the other,
    and the client receives their responses in this order, however the bytes of both directions are cut. -/
theorem serveConnection_answers {deliveries : List Delivery} {responses : List Response}
    {shard shard' : Shard Table} {connection : Connection} (hempty : text.parse [] = .parseError)
    (hsendable : ∀ delivery ∈ deliveries, Sendable text delivery.statement)
    (hserve : (Shard.serve quotient).run deliveries shard = some (responses, shard'))
    (hattached : Attached text ⟨shard, connection⟩ (deliveries.map Delivery.statement) responses)
    (hreadable : ∀ response ∈ responses, TcpClient.Readable text response.toJsonObject)
    (hsent : connection.sent = []) (last : NodeEnv) :
    ∃ connection', serveConnection quotient text (deliveries.map Delivery.env ++ [last]) ⟨shard, connection⟩ =
        .ok () ⟨shard', connection'⟩ ∧
      ∀ client : Socket, client.isValid = true → [] ∉ client.arriving →
        client.arriving.flatten = connection'.sent →
        ∃ client', TcpClient.receiveResponses text responses.length client =
          .ok (responses.map some) client' := by
  obtain ⟨connection', hrun, hbytes⟩ := run_serveConnection hempty hsendable hserve hattached last
  refine ⟨connection', hrun, fun client hvalid hpieces hclient => ?_⟩
  rw [hbytes, hsent, List.nil_append] at hclient
  exact run_receiveResponses hempty hreadable ⟨hvalid, hclient, hpieces⟩

/-! ## A table that is dropped -/

/-- `DROP TABLE rows;` -/
def dropRows : Statement := .dropTable { table := "rows" }

def dropRequest : Json :=
  Request.toJsonObject
    { action := "execute_ast"
      data := .object [("ast_root", .object [("node_type", .string "DropTableStatement"),
        ("table", .string "rows")])] }

def droppedResponse : Response := .success "Table shard dropped" Shard.noRows

/-- `dump()` of the request. -/
def dropRequestText : List UInt8 :=
  FileStream.textBytes ("\x7b\"action\":\"execute_ast\",\"data\":\x7b\"ast_root\":" ++
    "\x7b\"node_type\":\"DropTableStatement\",\"table\":\"rows\"\x7d\x7d\x7d")

/-- `dump()` of the response. -/
def droppedResponseText : List UInt8 :=
  FileStream.textBytes ("\x7b\"data\":\x7b\"rows_affected\":0\x7d,\"message\":\"Table shard dropped\"," ++
    "\"status\":\"success\"\x7d")

/-- JSON text, as far as these messages go. -/
def dropText : MessageText where
  parse bytes :=
    if bytes = dropRequestText then .value dropRequest
    else if bytes = droppedResponseText then .value droppedResponse.toJsonObject
    else .parseError
  dump json := if json.contains "action" then dropRequestText else droppedResponseText

/-- The request comes in two pieces, and the response leaves in two. -/
def dropConnection : Connection where
  socket := { isValid := true, arriving := [[0, 0, 0], 94 :: dropRequestText] }
  takes := [([4], [1, 78])]

def dropEnv : NodeEnv := { Executor.stillEnv with }

theorem serveConnection_answers_drop : ∃ connection',
    serveConnection (fun _ _ => (0, 0)) dropText [dropEnv, dropEnv]
        ⟨{ table := some ("rows", Table.new Executor.keySchema) }, dropConnection⟩ =
      .ok () ⟨{}, connection'⟩ := by
  have hsendable : ∀ delivery ∈ [(⟨dropEnv, dropRows⟩ : Delivery)],
      Sendable dropText delivery.statement := by
    intro delivery hdelivery
    obtain rfl := List.mem_singleton.1 hdelivery
    refine ⟨⟨.inl rfl, by decide⟩, by decide, fun request hrequest => ?_⟩
    cases hrequest
    exact ⟨rfl, by decide⟩
  have hattached : Attached dropText ⟨{ table := some ("rows", Table.new Executor.keySchema) }, dropConnection⟩
      [dropRows] [droppedResponse] :=
    ⟨⟨rfl, by decide, by decide⟩, .cons (by decide) .nil⟩
  have hreadable : ∀ response ∈ [droppedResponse], TcpClient.Readable dropText response.toJsonObject := by
    intro response hresponse
    obtain rfl := List.mem_singleton.1 hresponse
    exact ⟨rfl, by decide⟩
  obtain ⟨connection', hrun, -⟩ :=
    serveConnection_answers rfl hsendable rfl hattached hreadable rfl dropEnv
  exact ⟨connection', hrun⟩

end Application

end QuasarDB.Storage
