import QuasarDB.Client.Application
import QuasarDB.Library.Along

set_option autoImplicit false

/-! # What a session sends with its requests

A request that logs in carries no token. Every other request carries the token of the last login that
succeeded, and none after a logout, whatever is typed and whatever the server answers. A session ends, by an
assertion where a table has a row without a column of its first row. -/

namespace QuasarDB.Client

open Core Prog

/-! ## Tokens -/

/-- The token after the response to a login. -/
def loginToken (token : String) (response : Response) : String :=
  if response.isSuccess then
    match response.data.find "token" with
    | some (.string token) => token
    | _ => token
  else token

/-- The token that a session has after an event. -/
def tokenAfter (token : String) : Event → String
  | .exchange request (.response response) =>
      if request.action = "login" then loginToken token response else token
  | .logout => ""
  | _ => token

/-- The token that a session has after what is logged. -/
def heldToken (log : List Event) : String := log.foldl tokenAfter ""

/-- What the request carries, where the session has a token. -/
def Authorizes (token : String) (request : Request) : Prop :=
  request.token = if request.action = "login" ∨ request.action = "handshake" then "" else token

/-- Every request carries what it should. -/
def SendsHeld (log : List Event) : Prop :=
  ∀ before request reply later, log = before ++ .exchange request reply :: later →
    Authorizes (heldToken before) request

/-- The session has the token that its log gives it. -/
structure Disciplined (token : String) (log : List Event) : Prop where
  held : heldToken log = token
  sends : SendsHeld log

theorem Disciplined.append {token : String} {log : List Event} (h : Disciplined token log) (event : Event)
    (hevent : ∀ request reply, event = .exchange request reply → Authorizes token request) :
    Disciplined (tokenAfter token event) (log ++ [event]) := by
  constructor
  · rw [heldToken, List.foldl_append, ← heldToken, h.held]
    rfl
  · intro before request reply later hlog
    rcases List.eq_nil_or_concat later with rfl | ⟨later, last, rfl⟩
    · obtain ⟨rfl, hlast⟩ := List.append_inj' hlog rfl
      rw [h.held]
      exact hevent request reply (List.singleton_inj.1 hlast)
    · rw [List.concat_eq_append, ← List.cons_append, ← List.append_assoc] at hlog
      exact h.sends before request reply later (List.append_inj' hlog rfl).1

namespace Application

variable {σ : Type} {world : World σ} {app : Application σ}

/-- Discipline is kept, and no line is read twice. -/
structure Follows (app app' : Application σ) : Prop where
  tokens : Disciplined app.token app.log → Disciplined app'.token app'.log
  lines : app'.lineCount ≤ app.lineCount

instance : IsPreorder (Application σ) Follows where
  refl := fun _ => ⟨id, Nat.le_refl _⟩
  trans := fun _ _ _ h h' => ⟨fun htokens => h'.tokens (h.tokens htokens), h'.lines.trans h.lines⟩

/-- What stops a session: an exception, or a table that cannot be drawn. -/
def Stops (world : World σ) (e : Failure) (app : Application σ) : Prop :=
  (∃ what, e = .exception what) ∨
    e = Renderer.missingKey ∧ ∃ log response, app.log = log ++ [.shown response] ∧
      Renderer.fails world.parse response = true

instance : AdmitsExceptions (Stops world) := ⟨fun what _ => .inl ⟨what, rfl⟩⟩

variable {event : Event} {request : Request}

end Application

end QuasarDB.Client
