import ScimBridge.Json.Value

/-!
# Exchanges with other servers

What the service does with the backend and the token server is a tree of requests: each request
names what follows for every answer. The tree can be played against a script of answers, which also
records the requests that were made.

Main statements: exchanges compose associatively with `done` as unit, and playing a composition is
playing its parts one after the other.
-/

namespace ScimBridge

namespace Backend

/-- A request to a server. Members that are absent are not sent. -/
structure Request where
  method : String
  url : String
  params : Option Value := none
  headers : Option (Fields Value) := none
  json : Option Value := none
  form : Option (Fields Value) := none

/-- An answer: a status and a text, or the failure of the connection. -/
inductive Answer where
  | response (status : Int) (text : String)
  | failure (text : String)
  deriving DecidableEq, Repr

/-- A computation that may send requests. -/
inductive Exchange (α : Type) where
  | done (a : α)
  | call (request : Request) (next : Answer → Exchange α)

namespace Exchange

variable {α β γ : Type}

/-- Continue an exchange with its result. -/
def bind : Exchange α → (α → Exchange β) → Exchange β
  | .done a, f => f a
  | .call request next, f => .call request fun answer => (next answer).bind f

instance : Monad Exchange where
  pure := .done
  bind := bind

/-- Send one request. -/
def send (request : Request) : Exchange Answer := .call request .done

/-- The answer when a script is used up. -/
def noAnswer : Answer := .failure "no scripted response"

/-- What playing an exchange gives: its result, the requests in order and the unused answers. -/
structure Played (α : Type) where
  result : α
  calls : List Request
  unused : List Answer

/-- Play an exchange against a script of answers. -/
def play : Exchange α → List Answer → Played α
  | .done a, script => ⟨a, [], script⟩
  | .call request next, [] =>
    let rest := (next noAnswer).play []
    { rest with calls := request :: rest.calls }
  | .call request next, answer :: script =>
    let rest := (next answer).play script
    { rest with calls := request :: rest.calls }

theorem done_bind (a : α) (f : α → Exchange β) : (Exchange.done a).bind f = f a := rfl

theorem bind_done (x : Exchange α) : x.bind .done = x := by
  induction x with
  | done a => rfl
  | call request next ih => simp only [bind, ih]

theorem bind_assoc (x : Exchange α) (f : α → Exchange β) (g : β → Exchange γ) :
    (x.bind f).bind g = x.bind fun a => (f a).bind g := by
  induction x with
  | done a => rfl
  | call request next ih => simp only [bind, ih]

instance : LawfulMonad Exchange :=
  LawfulMonad.mk' Exchange bind_done (fun _ _ => rfl) bind_assoc

/-- Playing a composition is playing its parts one after the other. -/
theorem play_bind (x : Exchange α) (f : α → Exchange β) (script : List Answer) :
    (x.bind f).play script =
      let first := x.play script
      let second := (f first.result).play first.unused
      { second with calls := first.calls ++ second.calls } := by
  induction x generalizing script with
  | done a => simp [bind, play]
  | call request next ih =>
    cases script with
    | nil => simp [bind, play, ih]
    | cons answer script => simp [bind, play, ih]

end Exchange

end Backend

end ScimBridge
