import DirectoryAccess.Interceptor.Hook
import DirectoryAccess.Message

/-!
# Chains of interceptors

A chain sends each message through its interceptors in order. Each interceptor is given
the whole of what the one before it left, the number of the message included. It may
change the operation, but not its kind, and the controls; that it keeps the number is
expected of it and not checked. The first one to reject a request ends its way; what the
interceptors before it did to the common state stays done. The hook is chosen once, by
the message as it comes in.
-/

namespace DirectoryAccess

/-- An operation on its way through a chain, with the number of its message and its controls. The
operation and the controls may be replaced, but the number may not. -/
structure Intercepted (kind : Kind) where
  /-- The number of the message. -/
  id : Int32
  /-- What the operation carries. -/
  body : Body kind
  /-- The controls of the operation. -/
  controls : List Control

namespace Intercepted

variable {kind : Kind}

/-- Puts another operation of the same kind in the place of the one that is there, which is given
back. -/
def setBody (operation : Intercepted kind) (body : Body kind) : Body kind × Intercepted kind :=
  (operation.body, { operation with body })

/-- Changes the controls. -/
def modifyControls (operation : Intercepted kind) (change : List Control → List Control) :
    Intercepted kind :=
  { operation with controls := change operation.controls }

/-- The message that is made of whatever was left in place. -/
def toMessage (operation : Intercepted kind) : Message :=
  ⟨operation.id, ⟨kind, operation.body⟩, operation.controls⟩

end Intercepted

/-- What is done at each hook, with a state that is common to a chain. Where nothing else is said,
operations go on as they are. -/
structure Interceptor (σ : Type) where
  /-- Takes a request that passes a hook, and may reject it. -/
  onRequest : (hook : RequestHook) → Intercepted hook.kind →
    ExceptT Failure (StateM σ) (Intercepted hook.kind) := fun _ operation => pure operation
  /-- Takes a response that passes a hook. -/
  onResult : (hook : ResultHook) → Intercepted hook.kind → StateM σ (Intercepted hook.kind) :=
    fun _ operation => pure operation

/-- Interceptors, in the order in which they are called. -/
structure Chain (σ : Type) where
  /-- The interceptors. -/
  interceptors : List (Interceptor σ)

namespace Chain

variable {σ : Type}

/-- The number of interceptors. -/
def size (chain : Chain σ) : Nat := chain.interceptors.length

/-- Whether there are no interceptors. -/
def isEmpty (chain : Chain σ) : Bool := chain.interceptors.isEmpty

/-- Adds an interceptor at the end. -/
def push (chain : Chain σ) (interceptor : Interceptor σ) : Chain σ :=
  ⟨chain.interceptors ++ [interceptor]⟩

/-- Sends what passes a hook through all interceptors, until one rejects it. -/
def passRequest (chain : Chain σ) (hook : RequestHook) (operation : Intercepted hook.kind) :
    ExceptT Failure (StateM σ) (Intercepted hook.kind) :=
  chain.interceptors.foldlM (fun operation interceptor => interceptor.onRequest hook operation)
    operation

/-- Sends what passes a hook through all interceptors. -/
def passResult (chain : Chain σ) (hook : ResultHook) (operation : Intercepted hook.kind) :
    StateM σ (Intercepted hook.kind) :=
  chain.interceptors.foldlM (fun operation interceptor => interceptor.onResult hook operation)
    operation

/-- Sends a message through the hooks for requests. -/
def onRequest (chain : Chain σ) (message : Message) : ExceptT Failure (StateM σ) Message :=
  match RequestHook.ofOperation? message.op with
  | none => pure message
  | some ⟨hook, body⟩ =>
    Intercepted.toMessage <$> chain.passRequest hook ⟨message.id, body, message.controls⟩

/-- Sends a message through the hooks for responses. -/
def onResult (chain : Chain σ) (message : Message) : StateM σ Message :=
  match ResultHook.ofOperation? message.op with
  | none => pure message
  | some ⟨hook, body⟩ =>
    Intercepted.toMessage <$> chain.passResult hook ⟨message.id, body, message.controls⟩

/-- A chain in words. -/
def describe (chain : Chain σ) : String :=
  "InterceptorChain \x7b interceptors: " ++ toString chain.size ++ " \x7d"

end Chain

end DirectoryAccess
