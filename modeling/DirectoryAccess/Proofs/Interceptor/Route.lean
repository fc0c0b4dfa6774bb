import DirectoryAccess.Interceptor.Chain
import DirectoryAccess.Proofs.Answer

/-!
# Routes through chains

What is done at a hook is arbitrary, so what a chain does is told by the calls that it
makes. A route is the way of an operation through some interceptors: one call of each in
order, each with what the one before it left, up to the first rejection (`Route`). A chain can note
its calls (`Chain.noting`), which changes nothing else that it does; the calls that it notes
are those of a route, and the route ends as the chain does (`Chain.pass_of_route`).
-/

namespace DirectoryAccess

variable {σ : Type}

/-- Where operations are intercepted, on their way from the client or back to it. -/
inductive Hook
  | request (hook : RequestHook)
  | result (hook : ResultHook)
  deriving DecidableEq, Repr

/-- The kind of the operations that pass a hook. -/
@[reducible] def Hook.kind : Hook → Kind
  | request hook => hook.kind
  | result hook => hook.kind

/-- A call of an interceptor. -/
structure Visit (σ : Type) where
  /-- The place of the interceptor in the chain. -/
  place : Nat
  /-- The hook at which it is called. -/
  hook : Hook
  /-- What it is given, with the number of the message. -/
  given : Intercepted hook.kind
  /-- The state that it finds. -/
  state : σ

namespace Interceptor

/-- What is done at a hook on either way; a response is never rejected. -/
def handle (interceptor : Interceptor σ) :
    (hook : Hook) → Intercepted hook.kind → ExceptT Failure (StateM σ) (Intercepted hook.kind)
  | .request hook, operation => interceptor.onRequest hook operation
  | .result hook, operation => ExceptT.lift (interceptor.onResult hook operation)

/-- An interceptor that notes each of its calls and is otherwise the same. -/
def noting (place : Nat) (interceptor : Interceptor σ) : Interceptor (σ × List (Visit σ)) where
  onRequest hook operation := fun (s, visits) =>
    let (answer, t) := interceptor.onRequest hook operation s
    (answer, t, visits ++ [⟨place, .request hook, operation, s⟩])
  onResult hook operation := fun (s, visits) =>
    let (answer, t) := interceptor.onResult hook operation s
    (answer, t, visits ++ [⟨place, .result hook, operation, s⟩])

/-- An interceptor that notes a call answers it, and leaves the state, as it does otherwise. -/
theorem noting_handle {place : Nat} {interceptor : Interceptor σ} {hook : Hook}
    {operation : Intercepted hook.kind} {s t : σ}
    {answer : Except Failure (Intercepted hook.kind)}
    (h : interceptor.handle hook operation s = (answer, t)) (visits : List (Visit σ)) :
    (interceptor.noting place).handle hook operation (s, visits) =
      (answer, t, visits ++ [⟨place, hook, operation, s⟩]) := by
  obtain ⟨rfl, rfl⟩ := Prod.mk.inj h
  cases hook <;> rfl

/-- Interceptors that note each of their calls, the first of which has the given place. -/
def notingFrom (place : Nat) (interceptors : List (Interceptor σ)) :
    List (Interceptor (σ × List (Visit σ))) :=
  (interceptors.zipIdx place).map fun (interceptor, place) => interceptor.noting place

/-- The first interceptor notes its own place, and those behind it the places that follow. -/
theorem notingFrom_cons (place : Nat) (interceptor : Interceptor σ)
    (rest : List (Interceptor σ)) : notingFrom place (interceptor :: rest) =
      interceptor.noting place :: notingFrom (place + 1) rest := rfl

end Interceptor

/-- The way of an operation through interceptors, with what each of them was given and what it
found, and with how it ended. -/
inductive Route (hook : Hook) : List (Interceptor σ) → Intercepted hook.kind × σ →
    List (Intercepted hook.kind × σ) → Except Failure (Intercepted hook.kind) × σ → Prop
  /-- Behind the last interceptor the operation is as it was left. -/
  | arrived {operation s} : Route hook [] (operation, s) [] (.ok operation, s)
  /-- The first rejection ends the way. -/
  | rejected {interceptor rest operation s failure t}
      (h : interceptor.handle hook operation s = (.error failure, t)) :
      Route hook (interceptor :: rest) (operation, s) [(operation, s)] (.error failure, t)
  /-- The next interceptor is given what this one left. -/
  | passed {interceptor rest operation s next t stops ending}
      (h : interceptor.handle hook operation s = (.ok next, t))
      (onward : Route hook rest (next, t) stops ending) :
      Route hook (interceptor :: rest) (operation, s) ((operation, s) :: stops) ending

/-- The calls of a route whose first interceptor has the given place. -/
def visitsFrom (hook : Hook) (place : Nat) (stops : List (Intercepted hook.kind × σ)) :
    List (Visit σ) :=
  (stops.zipIdx place).map fun (stop, place) => ⟨place, hook, stop.1, stop.2⟩

/-- The first call of a route is that of the given place, and the others are behind it. -/
theorem visitsFrom_cons (hook : Hook) (place : Nat) (stop : Intercepted hook.kind × σ)
    (stops : List (Intercepted hook.kind × σ)) : visitsFrom hook place (stop :: stops) =
      ⟨place, hook, stop.1, stop.2⟩ :: visitsFrom hook (place + 1) stops := rfl

namespace Chain

/-- The chain of interceptors that note each of their calls. -/
def noting (chain : Chain σ) : Chain (σ × List (Visit σ)) :=
  ⟨Interceptor.notingFrom 0 chain.interceptors⟩

/-- Sends what passes a hook through all interceptors, until one rejects it. -/
def pass (interceptors : List (Interceptor σ)) (hook : Hook) (operation : Intercepted hook.kind) :
    ExceptT Failure (StateM σ) (Intercepted hook.kind) :=
  interceptors.foldlM (fun operation interceptor => interceptor.handle hook operation) operation

/-- What passes the first interceptor goes on through the others. -/
theorem pass_cons (interceptor : Interceptor σ) (rest : List (Interceptor σ)) (hook : Hook)
    (operation : Intercepted hook.kind) : pass (interceptor :: rest) hook operation =
      interceptor.handle hook operation >>= fun next => pass rest hook next :=
  List.foldlM_cons

/-- A request passes a hook as anything does that may be rejected. -/
theorem passRequest_eq (chain : Chain σ) (hook : RequestHook)
    (operation : Intercepted hook.kind) : chain.passRequest hook operation =
      pass chain.interceptors (.request hook) operation := rfl

/-- A response passes a hook as what is never rejected does. -/
theorem lift_passResult (chain : Chain σ) (hook : ResultHook)
    (operation : Intercepted hook.kind) : ExceptT.lift (chain.passResult hook operation) =
      pass chain.interceptors (.result hook) operation := by
  obtain ⟨interceptors⟩ := chain
  induction interceptors generalizing operation with
  | nil => rfl
  | cons interceptor rest ih =>
      rw [pass_cons, ← funext ih]
      rfl

/-- Interceptors that note their calls do what they do otherwise, and the calls that they note are
those of the route that they send an operation on. -/
theorem pass_of_route {hook : Hook} {interceptors : List (Interceptor σ)}
    {start : Intercepted hook.kind × σ} {stops : List (Intercepted hook.kind × σ)}
    {ending : Except Failure (Intercepted hook.kind) × σ}
    (h : Route hook interceptors start stops ending) :
    pass interceptors hook start.1 start.2 = ending ∧
      ∀ (place : Nat) (visits : List (Visit σ)),
        pass (Interceptor.notingFrom place interceptors) hook start.1 (start.2, visits) =
          (ending.1, ending.2, visits ++ visitsFrom hook place stops) := by
  induction h with
  | arrived =>
      refine ⟨rfl, fun place visits => ?_⟩
      rw [show visitsFrom hook place [] = ([] : List (Visit σ)) from rfl, List.append_nil]
      rfl
  | rejected h =>
      refine ⟨?_, fun place visits => ?_⟩
      · rw [pass_cons, bind_apply_of_error h]
      · rw [Interceptor.notingFrom_cons, pass_cons,
          bind_apply_of_error (Interceptor.noting_handle h visits)]
        rfl
  | passed h onward ih =>
      obtain ⟨hplain, hnoting⟩ := ih
      refine ⟨?_, fun place visits => ?_⟩
      · rw [pass_cons, bind_apply_of_ok h, hplain]
      · rw [Interceptor.notingFrom_cons, pass_cons,
          bind_apply_of_ok (Interceptor.noting_handle h visits), hnoting, visitsFrom_cons,
          List.append_assoc, List.singleton_append]

/-- Each operation has a route through interceptors. -/
theorem exists_route (hook : Hook) (interceptors : List (Interceptor σ))
    (operation : Intercepted hook.kind) (s : σ) :
    ∃ stops ending, Route hook interceptors (operation, s) stops ending := by
  induction interceptors generalizing operation s with
  | nil => exact ⟨_, _, .arrived⟩
  | cons interceptor rest ih =>
      rcases h : interceptor.handle hook operation s with ⟨answer, t⟩
      cases answer with
      | error failure => exact ⟨_, _, .rejected h⟩
      | ok next =>
          obtain ⟨stops, ending, onward⟩ := ih next t
          exact ⟨_, _, .passed h onward⟩

end Chain

end DirectoryAccess
