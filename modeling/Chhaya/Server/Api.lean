import Chhaya.Server.Auth
import Chhaya.Server.Routes

/-!
# The API

A request from its arrival to its response: the handler of its route behind the session check, and the error handler of
`backend/server/src/index.ts`.

- `serve_runs`: a handler that ends gives a response.
-/

namespace Chhaya

namespace Server

open Zod

section Api

variable (platform : Platform)

/-- The handler of a request. -/
def handle (call : Call) : Prog Response :=
  let auth := authMiddleware platform call.authorization
  match call.request with
  | .postChallenge body => postChallenge platform body
  | .postRegister body => postRegister platform body
  | .postLogin body => postLogin platform body
  | .postLogout => auth fun _ => postLogout platform call.authorization
  | .postContacts body => auth fun userId => postContacts userId body
  | .postConversations body => auth fun userId => postConversations platform userId body
  | .getConversations => auth fun userId => getConversations userId
  | .postMessages body => auth fun userId => postMessages platform userId body
  | .getMessages conversationId limit before beforeId => auth fun userId =>
    getMessages platform userId conversationId limit before beforeId
  | .postRead messageId => auth fun userId => postRead userId messageId
  | .postLink body => auth fun userId => postLink userId body

/-- The error handler of the app. -/
def errorResponse : ServerError → Response
  | .zod _ => ⟨400, .error "Invalid input"⟩
  | .error _ => ⟨500, .error "Internal server error"⟩

/-- The response to what a handler returned or threw. -/
def respond : Except ServerError Response → Response
  | .ok res => res
  | .error e => errorResponse e

/-- A request from its arrival to its response. -/
def serve (call : Call) : Prog Response := do
  receive call
  return respond (← (handle platform call).attempt)

end Api

/-! ## Runs -/

section Runs

variable {platform : Platform} {eff : World → (op : Op) → Except ServerError (Ans op) → World → Prop} {w w' w'' : World}

/-- A token of a live session lets its user in. -/
theorem authMiddleware_runs {authorization : Option String} {token : String} {next : Uuid → Prog Response} {user : Uuid}
    {r : Option (Except ServerError Response)} (ht : authorization.bind bearer = some token) (hx : isHex64 token = true)
    (ha : eff w (.sql (.authenticate (platform.tokenHash token))) (.ok (some user)) w')
    (hr : Async.Runs eff (next user) w' r w'') :
    Async.Runs eff (authMiddleware platform authorization next) w r w'' := by
  unfold authMiddleware authenticateToken
  rw [ht]
  simp only [if_pos hx]
  exact .call ha hr

/-- What a handler returns or throws is answered. -/
theorem serve_runs {call : Call} {r : Except ServerError Response} (hc : eff w (.receive call) (.ok ()) w')
    (hr : Async.Runs eff (handle platform call) w' (some r) w'') :
    Async.Runs eff (serve platform call) w (some (.ok (respond r))) w'' :=
  .call hc (hr.attempt.bind (.done _ _))

/-- A request is cut off in its handler. -/
theorem serve_cut {call : Call} (hc : eff w (.receive call) (.ok ()) w')
    (hr : Async.Runs eff (handle platform call) w' none w'') : Async.Runs eff (serve platform call) w none w'' :=
  .call hc hr.attempt_cut.bind_cut

end Runs

end Server

end Chhaya
