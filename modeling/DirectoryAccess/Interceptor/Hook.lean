import DirectoryAccess.Operation.Basic

/-!
# Hooks

A hook is a place where interceptors see operations of one kind on their way, from
the client (`RequestHook`) or back to it (`ResultHook`). Binding has two hooks for
requests, because simple credentials are looked at apart from those of a mechanism.
Requests to unbind or to abandon an operation pass by all hooks.
-/

namespace DirectoryAccess

/-- Where requests are intercepted. -/
inductive RequestHook
  | add
  | simpleBind
  | saslBind
  | compare
  | delete
  | extended
  | modify
  | modifyDn
  | search
  deriving DecidableEq, Repr

namespace RequestHook

/-- The kind of the operations that pass a hook. -/
@[reducible] def kind : RequestHook → Kind
  | add => .addRequest
  | simpleBind => .bindRequest
  | saslBind => .bindRequest
  | compare => .compareRequest
  | delete => .deleteRequest
  | extended => .extendedRequest
  | modify => .modifyRequest
  | modifyDn => .modifyDnRequest
  | search => .searchRequest

/-- The hook that a request passes and what it carries there. -/
def ofOperation? : Operation → Option ((hook : RequestHook) × Body hook.kind)
  | ⟨.addRequest, entry⟩ => some ⟨add, entry⟩
  | ⟨.bindRequest, request⟩ =>
    if request.credentials.isSasl then some ⟨saslBind, request⟩ else some ⟨simpleBind, request⟩
  | ⟨.compareRequest, request⟩ => some ⟨compare, request⟩
  | ⟨.deleteRequest, dn⟩ => some ⟨delete, dn⟩
  | ⟨.extendedRequest, request⟩ => some ⟨extended, request⟩
  | ⟨.modifyRequest, request⟩ => some ⟨modify, request⟩
  | ⟨.modifyDnRequest, request⟩ => some ⟨modifyDn, request⟩
  | ⟨.searchRequest, request⟩ => some ⟨search, request⟩
  | _ => none

/-- A hook sees a request as it is. -/
theorem eq_of_ofOperation? {op : Operation} {hook : RequestHook} {body : Body hook.kind}
    (h : ofOperation? op = some ⟨hook, body⟩) : op = ⟨hook.kind, body⟩ := by
  unfold ofOperation? at h
  repeat' split at h
  all_goals cases h
  all_goals rfl

end RequestHook

/-- Where responses are intercepted. -/
inductive ResultHook
  | add
  | bind
  | compare
  | delete
  | extended
  | modify
  | modifyDn
  | searchEntry
  | searchReference
  | searchDone
  | intermediate
  deriving DecidableEq, Repr

namespace ResultHook

/-- The kind of the operations that pass a hook. -/
@[reducible] def kind : ResultHook → Kind
  | add => .addResponse
  | bind => .bindResponse
  | compare => .compareResponse
  | delete => .deleteResponse
  | extended => .extendedResponse
  | modify => .modifyResponse
  | modifyDn => .modifyDnResponse
  | searchEntry => .searchResultEntry
  | searchReference => .searchResultReference
  | searchDone => .searchResultDone
  | intermediate => .intermediateResponse

/-- The hook that a response passes and what it carries there. -/
def ofOperation? : Operation → Option ((hook : ResultHook) × Body hook.kind)
  | ⟨.addResponse, outcome⟩ => some ⟨add, outcome⟩
  | ⟨.bindResponse, response⟩ => some ⟨bind, response⟩
  | ⟨.compareResponse, outcome⟩ => some ⟨compare, outcome⟩
  | ⟨.deleteResponse, outcome⟩ => some ⟨delete, outcome⟩
  | ⟨.extendedResponse, response⟩ => some ⟨extended, response⟩
  | ⟨.modifyResponse, outcome⟩ => some ⟨modify, outcome⟩
  | ⟨.modifyDnResponse, outcome⟩ => some ⟨modifyDn, outcome⟩
  | ⟨.searchResultEntry, entry⟩ => some ⟨searchEntry, entry⟩
  | ⟨.searchResultReference, urls⟩ => some ⟨searchReference, urls⟩
  | ⟨.searchResultDone, outcome⟩ => some ⟨searchDone, outcome⟩
  | ⟨.intermediateResponse, named⟩ => some ⟨intermediate, named⟩
  | _ => none

/-- A hook sees a response as it is. -/
theorem eq_of_ofOperation? {op : Operation} {hook : ResultHook} {body : Body hook.kind}
    (h : ofOperation? op = some ⟨hook, body⟩) : op = ⟨hook.kind, body⟩ := by
  unfold ofOperation? at h
  split at h
  all_goals cases h
  all_goals rfl

end ResultHook

end DirectoryAccess
