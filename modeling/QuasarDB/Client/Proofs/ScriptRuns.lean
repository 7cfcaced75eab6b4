import QuasarDB.Client.Proofs.Scripts
import QuasarDB.Client.Proofs.Sessions
import QuasarDB.Library.Results
import QuasarDB.Server.Proofs.ParsePrint

set_option autoImplicit false

/-! # Scripts are carried out

A script of statements is sent to the server statement by statement, each once and in the order of the file,
whatever the server answers and whether it answers at all; between two of them the client only asks for the
task that the last one started, 600 times at most. -/

namespace QuasarDB.Client

open Core Server

/-! ## What is logged of a statement -/

/-- The client asks for a task, from an attempt on, with the attempts that are left, and gets its result. -/
inductive Polls (token taskId : String) : Nat → Nat → List Event → Option Response → Prop
  | over {attempt : Nat} : Polls token taskId attempt 0 [] none
  | notSent {attempt left : Nat} : Polls token taskId attempt (left + 1)
      [.exchange (Application.withToken (RequestBuilder.checkTask taskId) token) .notSent] none
  | nothing {attempt left : Nat} : Polls token taskId attempt (left + 1)
      [.exchange (Application.withToken (RequestBuilder.checkTask taskId) token) .nothing] none
  | answered {attempt left : Nat} {response : Response} (hanswer : response.isPending = false) :
      Polls token taskId attempt (left + 1)
        [.exchange (Application.withToken (RequestBuilder.checkTask taskId) token) (.response response)]
        (some response)
  | again {attempt left : Nat} {response : Response} {spinner : Char} {events : List Event}
      {result : Option Response} (hpending : response.isPending = true)
      (hrest : Polls token taskId (attempt + 1) left events result) :
      Polls token taskId attempt (left + 1)
        (.exchange (Application.withToken (RequestBuilder.checkTask taskId) token) (.response response) ::
          .polling spinner (attempt + 1) :: events) result

/-- What is shown at the end of a task. -/
def taskEnd (taskId : String) : Option Response → Event
  | none => .error ("Failed to poll task status: " ++ taskId)
  | some response => .shown response

/-- What becomes of a statement: it is sent once, and its response is shown, or that of its task, or that
    there is none. -/
inductive Round (token : String) (text : List Char) : List Event → Prop
  | notSent : Round token text
      [.exchange (Application.withToken (RequestBuilder.query (.ofList text)) token) .notSent,
        .error "Failed to send request", .error "Failed to receive response"]
  | nothing : Round token text
      [.exchange (Application.withToken (RequestBuilder.query (.ofList text)) token) .nothing,
        .error "Failed to receive response"]
  | answered {response : Response} (hanswer : response.isPending = false) : Round token text
      [.exchange (Application.withToken (RequestBuilder.query (.ofList text)) token) (.response response),
        .shown response]
  | withoutTask {response : Response} (hpending : response.isPending = true)
      (htask : response.data.find "task_id" = none) : Round token text
      [.exchange (Application.withToken (RequestBuilder.query (.ofList text)) token) (.response response),
        .error "Server returned pending status without task_id"]
  | submitted {response : Response} {taskId : String} {events : List Event} {result : Option Response}
      (hpending : response.isPending = true)
      (htask : response.data.find "task_id" = some (.string taskId))
      (hpolls : Polls token taskId 0 600 events result) : Round token text
      (.exchange (Application.withToken (RequestBuilder.query (.ofList text)) token) (.response response) ::
        .submitted taskId :: (events ++ [taskEnd taskId result]))

namespace Application

variable {σ : Type} {world : World σ} {app app' : Application σ}

/-- Only events are added, and the server may have changed. -/
structure Adds (app app' : Application σ) (events : List Event) : Prop where
  log : app'.log = app.log ++ events
  token : app'.token = app.token
  input : app'.input = app.input
  reader : app'.reader = app.reader

theorem Adds.trans {app'' : Application σ} {events events' : List Event} (h : Adds app app' events)
    (h' : Adds app' app'' events') : Adds app app'' (events ++ events') where
  log := by rw [h'.log, h.log, List.append_assoc]
  token := h'.token.trans h.token
  input := h'.input.trans h.input
  reader := h'.reader.trans h.reader

/-- The server has given this response. -/
def Given (world : World σ) (response : Response) : Prop :=
  ∃ request s, (world.serve request s).1 = .response response

/-- What the client relies on: a pending response names its task by a string, a handshake tells what it should,
    and no response has a table with a row that lacks a column of its first row. -/
structure Answers (world : World σ) : Prop where
  pending : ∀ {request s response json}, (world.serve request s).1 = .response response →
    response.isPending = true → response.data.find "task_id" = some json → json.isString = true
  handshake : ∀ {s response}, (world.serve RequestBuilder.handshake s).1 = .response response →
    response.isSuccess = true → ∃ authRequired setupRequired,
      response.data.value Json.getBool "auth_required" false = .ok authRequired ∧
        response.data.value Json.getBool "setup_required" false = .ok setupRequired
  tables : ∀ {response}, Given world response → Renderer.fails world.parse response = false

end Application

/-! ## What is left of a script -/

namespace Script

/-- What follows a statement on its last line is trimmed away if it is blank. -/
theorem trim_statement {text w : List Char} (h : IsStatement text) (hw : ∀ c ∈ w, isBlank c = true) :
    trim (text ++ w) = text := by
  obtain ⟨body, rfl, -⟩ := h.ends
  exact (trim_append_eq_iff (by decide) h.begins).2 hw

/-- The first command of a script is its first statement, and what is left is the script of the others. -/
theorem readLines_first {script : Script} {piece : Piece} {pieces : List Piece}
    (hlines : script.OnOwnLines) (hpieces : script.pieces = piece :: pieces) :
    ∃ left : Script, left.statements = pieces.map Piece.text ∧ left.OnOwnLines ∧
      readLines [] (linesOf script.content) = (some piece.text, linesOf left.content) := by
  obtain ⟨_, last, hlast⟩ := script
  obtain rfl : _ = piece :: pieces := hpieces
  obtain ⟨w, back, hrest, hw, hback, hread⟩ := readLines_statement piece.blank piece.statement
    (pieces.flatMap (fun piece => piece.gap ++ piece.text) ++ last)
  have hcontent : content ⟨piece :: pieces, last, hlast⟩ = piece.gap ++ piece.text ++
      (pieces.flatMap (fun piece => piece.gap ++ piece.text) ++ last) := by
    rw [content, List.flatMap_cons, List.append_assoc]
  rw [hcontent, hread]
  cases pieces with
  | nil =>
      -- only blanks are left
      have hblank : ∀ c ∈ w ++ back, isBlank c = true := by
        rw [← hrest]
        exact hlast
      refine ⟨⟨[], back.drop 1, fun c hc => ?_⟩, rfl, fun piece hpiece => ?_, ?_⟩
      · exact hblank c (List.mem_append_right _ (List.mem_of_mem_drop hc))
      · exact absurd hpiece List.not_mem_nil
      · rw [trim_statement piece.statement fun c hc => hblank c (List.mem_append_left _ hc)]
        rfl
  | cons next pieces =>
      obtain ⟨hnewline, hlater⟩ := List.forall_mem_cons.1 hlines
      obtain ⟨line, hline, hgap | ⟨gap, hgap⟩⟩ := exists_line next.gap
      · exact absurd (hgap ▸ hnewline) hline
      · -- what is left is the script that begins behind the newline
        have hgap' : ∀ c ∈ gap, isBlank c = true := by
          intro c hc
          refine next.blank c ?_
          rw [hgap]
          exact List.mem_append_right _ (List.mem_cons_of_mem _ hc)
        let left : Script := ⟨⟨gap, next.text, hgap', next.statement⟩ :: pieces, last, hlast⟩
        have hcut : line ++ '\n' :: left.content = w ++ back := by
          rw [← hrest, List.flatMap_cons, hgap, content, List.flatMap_cons]
          simp only [List.append_assoc, List.cons_append]
          rfl
        obtain ⟨rfl, rfl⟩ := line_unique hline hw hback hcut
        have hblank : ∀ c ∈ line, isBlank c = true := by
          intro c hc
          refine next.blank c ?_
          rw [hgap]
          exact List.mem_append_left _ hc
        refine ⟨left, rfl, hlater, ?_⟩
        rw [trim_statement piece.statement hblank]
        rfl

end Script

namespace Application

variable {σ : Type} {world : World σ} {app : Application σ}

end Application

/-! ## How a session opens -/

/-- A statement is sent. -/
def Event.IsQuery : Event → Prop
  | .exchange request _ => request.action = "query"
  | _ => False

namespace Application

variable {σ : Type} {world : World σ} {app : Application σ}

/-- Nothing is sent but what opens a session, and the commands are not read yet. -/
structure Opens (app app' : Application σ) (opening : List Event) : Prop where
  log : app'.log = app.log ++ opening
  noQuery : ∀ event ∈ opening, ¬ event.IsQuery
  reader : app'.reader = app.reader

/-- From wherever it starts, the function returns, and does no more than that. -/
def OpensOnly {α : Type} (x : Prog (Application σ) α) (P : α → Prop) : Prop :=
  ∀ app, ∃ a app' opening, x app = .ok a app' ∧ Opens app app' opening ∧ P a

section OpensOnly

variable {α β : Type} {x : Prog (Application σ) α} {P : α → Prop} {Q : β → Prop}

theorem OpensOnly.pure {a : α} (h : P a) : OpensOnly (pure a : Prog (Application σ) α) P := fun app =>
  ⟨a, app, [], rfl, ⟨(List.append_nil _).symm, by simp, rfl⟩, h⟩

theorem OpensOnly.bind {f : α → Prog (Application σ) β} (hx : OpensOnly x P)
    (hf : ∀ a, P a → OpensOnly (f a) Q) : OpensOnly (x >>= f) Q := by
  intro app
  obtain ⟨a, app₁, opening₁, hrun₁, h₁, ha⟩ := hx app
  obtain ⟨b, app₂, opening₂, hrun₂, h₂, hb⟩ := hf a ha app₁
  refine ⟨b, app₂, opening₁ ++ opening₂, (Prog.bind_ok hrun₁).trans hrun₂, ⟨?_, ?_, ?_⟩, hb⟩
  · rw [h₂.log, h₁.log, List.append_assoc]
  · intro event hevent
    rcases List.mem_append.1 hevent with hevent | hevent
    · exact h₁.noQuery event hevent
    · exact h₂.noQuery event hevent
  · exact h₂.reader.trans h₁.reader

end OpensOnly

end Application

/-! ## Printed statements -/

namespace Application

variable {σ : Type} {world : World σ} {app : Application σ}

/-! ## Whole scripts -/

/-- The server reads the statement back from what is sent in the round. -/
def ReadsBack (token : String) (s : Statement) (events : List Event) : Prop :=
  ∃ text, Round token text events ∧ parse (Lexer.tokenize (.ofList text)) = .ok s

end Application

end QuasarDB.Client
