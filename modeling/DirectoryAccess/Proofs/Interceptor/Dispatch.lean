import DirectoryAccess.Proofs.Interceptor.Number
import Mathlib.Logic.ExistsUnique

/-!
# Messages on their way through chains

Each message from the client is seen at one hook, unless it asks to unbind or to abandon an
operation, and each message to the client is seen at one hook; all other messages pass by
(`Chain.onRequest_onResult_leads`). At its hook a message is led through the interceptors on
a route of its own, and comes out of its kind, or is rejected by the interceptor that was
called last (`Chain.Leads`). Interceptors that do only what they may give it back with its
number (`Chain.Leads.id_of_edits`); whatever they do, that depends on their leaving the
numbers that they are given (`Chain.Leads.id_eq_iff`,
`Chain.onResult_push_renumbering`).
-/

namespace DirectoryAccess

variable {σ : Type}

/-! ## Hooks of messages -/

namespace RequestHook

/-- Hooks see the operations of their kind, of which those to bind are seen at either of two hooks,
by what the credentials are. -/
def Sees (hook : RequestHook) (op : Operation) : Prop :=
  hook.kind = op.kind ∧ ∀ request : BindRequest, op = ⟨.bindRequest, request⟩ →
    (hook = .saslBind ↔ request.credentials.isSasl = true)

/-- Operations to unbind, to abandon an operation and responses pass by all hooks for requests. -/
def Unseen (kind : Kind) : Prop :=
  kind = .unbindRequest ∨ kind = .abandonRequest ∨ kind.isRequest = false

instance : DecidablePred Unseen := fun kind =>
  inferInstanceAs (Decidable (kind = .unbindRequest ∨ kind = .abandonRequest ∨ _))

/-- An operation passes the hook that sees it. -/
theorem exists_ofOperation?_of_sees {hook : RequestHook} {op : Operation} (h : hook.Sees op) :
    ∃ body, ofOperation? op = some ⟨hook, body⟩ := by
  obtain ⟨kind, body⟩ := op
  obtain ⟨rfl, hbind⟩ := h
  cases hook with
  | simpleBind =>
      have hsimple : ¬ body.credentials.isSasl = true := fun hsasl =>
        absurd ((hbind body rfl).mpr hsasl) (by decide)
      exact ⟨body, if_neg hsimple⟩
  | saslBind =>
      have hsasl : body.credentials.isSasl = true := (hbind body rfl).mp rfl
      exact ⟨body, if_pos hsasl⟩
  | _ => exact ⟨body, rfl⟩

/-- The hook that an operation passes sees it. -/
theorem sees_of_ofOperation? {hook : RequestHook} {op : Operation} {body : Body hook.kind}
    (h : ofOperation? op = some ⟨hook, body⟩) : hook.Sees op := by
  refine ⟨(congrArg Operation.kind (eq_of_ofOperation? h)).symm, ?_⟩
  rintro request rfl
  rw [ofOperation?] at h
  split at h
  · rename_i hsasl
    cases h
    exact iff_of_true rfl hsasl
  · rename_i hsimple
    cases h
    exact iff_of_false (by decide) hsimple

/-- Operations pass no hook where they pass by all of them. -/
theorem ofOperation?_eq_none_iff {op : Operation} : ofOperation? op = none ↔ Unseen op.kind := by
  obtain ⟨kind, body⟩ := op
  change _ ↔ Unseen kind
  cases kind with
  | bindRequest =>
      refine iff_of_false ?_ (by decide)
      rw [ofOperation?]
      split <;> nofun
  | addRequest | compareRequest | deleteRequest | extendedRequest | modifyRequest |
      modifyDnRequest | searchRequest => exact iff_of_false nofun (by decide)
  | _ => exact iff_of_true rfl (by decide)

/-- An operation that does not pass by all hooks is seen at one of them. -/
theorem existsUnique_sees {op : Operation} (h : ¬ Unseen op.kind) :
    ∃! hook : RequestHook, hook.Sees op := by
  cases hpass : ofOperation? op with
  | none => exact absurd (ofOperation?_eq_none_iff.mp hpass) h
  | some passed =>
      refine ⟨passed.1, sees_of_ofOperation? hpass, fun hook hsees => ?_⟩
      obtain ⟨body, hbody⟩ := exists_ofOperation?_of_sees hsees
      exact congrArg Sigma.fst (Option.some.inj (hbody.symm.trans hpass))

end RequestHook

namespace ResultHook

/-- An operation passes the hook for its kind. -/
theorem exists_ofOperation?_of_kind_eq {hook : ResultHook} {op : Operation}
    (h : hook.kind = op.kind) : ∃ body, ofOperation? op = some ⟨hook, body⟩ := by
  obtain ⟨kind, body⟩ := op
  obtain rfl := h
  cases hook <;> exact ⟨body, rfl⟩

/-- Requests pass no hook for responses. -/
theorem ofOperation?_eq_none_iff {op : Operation} :
    ofOperation? op = none ↔ op.kind.isRequest = true := by
  obtain ⟨kind, body⟩ := op
  change _ ↔ kind.isRequest = true
  cases kind <;> first | exact iff_of_true rfl rfl | exact iff_of_false nofun (by decide)

/-- A response is seen at one hook. -/
theorem existsUnique_kind_eq {op : Operation} (h : op.kind.isRequest = false) :
    ∃! hook : ResultHook, hook.kind = op.kind := by
  cases hpass : ofOperation? op with
  | none => exact absurd (ofOperation?_eq_none_iff.mp hpass) (Bool.eq_false_iff.mp h)
  | some passed =>
      refine ⟨passed.1, (congrArg Operation.kind (eq_of_ofOperation? hpass)).symm, ?_⟩
      intro hook hsees
      obtain ⟨body, hbody⟩ := exists_ofOperation?_of_kind_eq hsees
      exact congrArg Sigma.fst (Option.some.inj (hbody.symm.trans hpass))

end ResultHook

/-! ## Calls of a route -/

namespace Route

variable {hook : Hook} {interceptors : List (Interceptor σ)} {start : Intercepted hook.kind × σ}
  {stops : List (Intercepted hook.kind × σ)} {ending : Except Failure (Intercepted hook.kind) × σ}

/-- An operation that is not rejected was given to each interceptor once. -/
theorem length_of_ok (h : Route hook interceptors start stops ending)
    {operation : Intercepted hook.kind} (hok : ending.1 = .ok operation) :
    stops.length = interceptors.length := by
  induction h with
  | arrived => rfl
  | rejected h => cases hok
  | passed h onward ih => rw [List.length_cons, List.length_cons, ih hok]

/-- No interceptor is given an operation twice. -/
theorem length_le (h : Route hook interceptors start stops ending) :
    stops.length ≤ interceptors.length := by
  induction h with
  | arrived => exact Nat.le_refl 0
  | rejected h => exact Nat.succ_le_succ (Nat.zero_le _)
  | passed h onward ih => exact Nat.succ_le_succ ih

/-- The first interceptor is given what was sent. -/
theorem getElem?_zero (h : Route hook interceptors start stops ending)
    {first : Interceptor σ} (hfirst : interceptors[0]? = some first) : stops[0]? = some start := by
  cases h with
  | arrived => cases hfirst
  | rejected => rfl
  | passed => rfl

/-- Each interceptor is given what the one before it left. -/
theorem getElem?_succ (h : Route hook interceptors start stops ending) {k : Nat}
    {interceptor following : Interceptor σ} {stop : Intercepted hook.kind × σ}
    {next : Intercepted hook.kind} {t : σ} (hinterceptor : interceptors[k]? = some interceptor)
    (hfollowing : interceptors[k + 1]? = some following) (hstop : stops[k]? = some stop)
    (hleft : interceptor.handle hook stop.1 stop.2 = (.ok next, t)) :
    stops[k + 1]? = some (next, t) := by
  induction h generalizing k with
  | arrived => cases hinterceptor
  | rejected h =>
      cases k with
      | zero =>
          obtain rfl := Option.some.inj hinterceptor
          obtain rfl := Option.some.inj hstop
          cases h.symm.trans hleft
      | succ k => cases hstop
  | passed h onward ih =>
      cases k with
      | zero =>
          obtain rfl := Option.some.inj hinterceptor
          obtain rfl := Option.some.inj hstop
          cases h.symm.trans hleft
          exact onward.getElem?_zero hfollowing
      | succ k => exact ih hinterceptor hfollowing hstop

/-- An operation that is rejected is rejected by the interceptor to which it was given last. -/
theorem exists_rejecting (h : Route hook interceptors start stops ending) {failure : Failure}
    (herror : ending.1 = .error failure) :
    ∃ k interceptor stop t, stops.length = k + 1 ∧ interceptors[k]? = some interceptor ∧
      stops[k]? = some stop ∧ interceptor.handle hook stop.1 stop.2 = (.error failure, t) := by
  induction h with
  | arrived => cases herror
  | rejected h =>
      cases herror
      exact ⟨0, _, _, _, rfl, rfl, rfl, h⟩
  | passed h onward ih =>
      obtain ⟨k, interceptor, stop, t, hlength, hinterceptor, hstop, hrejects⟩ := ih herror
      exact ⟨k + 1, interceptor, stop, t, congrArg (· + 1) hlength, hinterceptor, hstop, hrejects⟩

/-- Where something is given to an interceptor that is not like what was given to the first one, one
before it was given the like and left something else. -/
theorem exists_change (h : Route hook interceptors start stops ending)
    {p : Intercepted hook.kind → Prop} (hstart : p start.1) {k : Nat}
    {stop : Intercepted hook.kind × σ} (hk : stops[k]? = some stop) (hstop : ¬ p stop.1) :
    ∃ j < k, ∃ interceptor before after t, interceptors[j]? = some interceptor ∧
      stops[j]? = some before ∧ p before.1 ∧
      interceptor.handle hook before.1 before.2 = (.ok after, t) ∧ ¬ p after := by
  induction h generalizing k with
  | arrived => cases hk
  | rejected h =>
      cases k with
      | zero =>
          obtain rfl := Option.some.inj hk
          exact absurd hstart hstop
      | succ k => cases hk
  | @passed interceptor rest operation s next t stops ending h onward ih =>
      cases k with
      | zero =>
          obtain rfl := Option.some.inj hk
          exact absurd hstart hstop
      | succ k =>
          by_cases hnext : p next
          · obtain ⟨j, hj, changing, before, after, u, hchanging, hbefore, hlike⟩ := ih hnext hk
            exact ⟨j + 1, Nat.succ_lt_succ hj, changing, before, after, u, hchanging, hbefore,
              hlike⟩
          · exact ⟨0, Nat.succ_pos k, interceptor, (operation, s), next, t, rfl, rfl, hstart, h,
              hnext⟩

end Route

/-- A route has as many calls as operations were given. -/
@[simp] theorem length_visitsFrom (hook : Hook) (place : Nat)
    (stops : List (Intercepted hook.kind × σ)) :
    (visitsFrom hook place stops).length = stops.length := by
  rw [visitsFrom, List.length_map, List.length_zipIdx]

/-- The calls of a route follow each other from the given place on. -/
theorem getElem?_visitsFrom (hook : Hook) (place k : Nat)
    (stops : List (Intercepted hook.kind × σ)) : (visitsFrom hook place stops)[k]? =
      stops[k]?.map fun stop => ⟨place + k, hook, stop.1, stop.2⟩ := by
  rw [visitsFrom, List.getElem?_map, List.getElem?_zipIdx, Option.map_map]
  rfl

/-- The calls of a route are those of what was given to the interceptors, each in its place. -/
theorem mem_visitsFrom {hook : Hook} {place : Nat} {stops : List (Intercepted hook.kind × σ)}
    {visit : Visit σ} :
    visit ∈ visitsFrom hook place stops ↔ ∃ (k : Nat) (stop : Intercepted hook.kind × σ),
      stops[k]? = some stop ∧ ⟨place + k, hook, stop.1, stop.2⟩ = visit := by
  rw [List.mem_iff_getElem?]
  simp only [getElem?_visitsFrom, Option.map_eq_some_iff]

/-- No interceptor of a chain that is called on a route leaves another number than it was given,
exactly if all are given the number that was sent and the operation arrives with it. -/
theorem Route.id_eq_iff_not_renumbers {chain : Chain σ} {hook : Hook}
    {start : Intercepted hook.kind × σ} {stops : List (Intercepted hook.kind × σ)}
    {ending : Except Failure (Intercepted hook.kind) × σ}
    (h : Route hook chain.interceptors start stops ending) :
    ((∀ visit ∈ visitsFrom hook 0 stops, visit.given.id = start.1.id) ∧
        ∀ next, ending.1 = .ok next → next.id = start.1.id) ↔
      ∀ visit ∈ visitsFrom hook 0 stops, ¬ chain.Renumbers visit := by
  constructor
  · rintro ⟨hvisits, hending⟩ visit hmem ⟨interceptor, next, t, hinterceptor, hleft, hid⟩
    obtain ⟨k, stop, hstop, rfl⟩ := mem_visitsFrom.mp hmem
    rw [Nat.zero_add] at hinterceptor
    refine hid (h.id_eq_iff.mp ⟨fun other hother => ?_, hending⟩ k interceptor stop next t
      hinterceptor hstop hleft)
    obtain ⟨j, hj⟩ := List.getElem?_of_mem hother
    exact hvisits _ (mem_visitsFrom.mpr ⟨j, other, hj, rfl⟩)
  · intro hnone
    obtain ⟨hstops, hending⟩ := h.id_eq_iff.mpr fun k interceptor stop next t hinterceptor hstop
        hleft => by
      by_contra hid
      refine hnone _ (mem_visitsFrom.mpr ⟨k, stop, hstop, rfl⟩)
        ⟨interceptor, next, t, ?_, hleft, hid⟩
      rw [Nat.zero_add]
      exact hinterceptor
    refine ⟨fun visit hmem => ?_, hending⟩
    obtain ⟨k, stop, hstop, rfl⟩ := mem_visitsFrom.mp hmem
    exact hstops stop (List.mem_of_getElem? hstop)

namespace Chain

/-- A chain that leads a message through a hook, with the calls that it makes and what comes of
it. -/
structure Leads (chain : Chain σ) (hook : Hook) (message : Message) (s : σ)
    (visits : List (Visit σ)) (outcome : Except Failure Message × σ) : Prop where
  /-- The calls are those of a route of the message, and what comes of it is the message that is
  made of what the last interceptor left, or the rejection. -/
  route : ∃ body stops ending, message.op = ⟨hook.kind, body⟩ ∧
    Route hook chain.interceptors (⟨message.id, body, message.controls⟩, s) stops ending ∧
    visits = visitsFrom hook 0 stops ∧
    outcome = (ending.1.map Intercepted.toMessage, ending.2)
  /-- The interceptors are called in order, all at the same hook. -/
  in_order : ∀ (k : Nat) (visit : Visit σ), visits[k]? = some visit →
    visit.place = k ∧ visit.hook = hook
  /-- A message that is not rejected was given to each interceptor once, and comes out of the same
  kind. -/
  of_ok : ∀ m, outcome.1 = .ok m → visits.length = chain.size ∧ m.op.kind = message.op.kind
  /-- It comes out with its number, if the interceptors do only what they may. -/
  id_of_edits : (∀ interceptor ∈ chain.interceptors, interceptor.Edits) →
    ∀ m, outcome.1 = .ok m → m.id = message.id
  /-- Whatever the interceptors do, all that are called are given the number and the message comes
  out with it, exactly if none of them leaves another one than it is given. -/
  id_eq_iff : ((∀ visit ∈ visits, visit.given.id = message.id) ∧
      ∀ m, outcome.1 = .ok m → m.id = message.id) ↔ ∀ visit ∈ visits, ¬ chain.Renumbers visit
  /-- A message that is rejected is rejected by the interceptor that is called last. -/
  of_error : ∀ failure, outcome.1 = .error failure →
    ∃ k visit interceptor t, visits.length = k + 1 ∧ visits[k]? = some visit ∧
      chain.interceptors[k]? = some interceptor ∧
      interceptor.handle visit.hook visit.given visit.state = (.error failure, t)

/-- What arrives is what a message is made of, with the same number. -/
theorem map_toMessage_eq_ok_iff {kind : Kind} {answer : Except Failure (Intercepted kind)}
    {m : Message} : answer.map Intercepted.toMessage = .ok m ↔
      ∃ next, answer = .ok next ∧ next.toMessage = m := by
  cases answer with
  | error failure => exact ⟨nofun, nofun⟩
  | ok next =>
      constructor
      · intro h
        exact ⟨next, rfl, Except.ok.inj h⟩
      · rintro ⟨next, ⟨⟩, rfl⟩
        rfl

/-- An operation on a route makes a message that is led along it. -/
theorem Leads.of_route {chain : Chain σ} {hook : Hook} {message : Message}
    {body : Body hook.kind} {s : σ} {stops : List (Intercepted hook.kind × σ)}
    {ending : Except Failure (Intercepted hook.kind) × σ}
    (hop : message.op = ⟨hook.kind, body⟩)
    (hroute : Route hook chain.interceptors (⟨message.id, body, message.controls⟩, s) stops
      ending) :
    chain.Leads hook message s (visitsFrom hook 0 stops)
      (ending.1.map Intercepted.toMessage, ending.2) := by
  have hid : (∀ m, ending.1.map Intercepted.toMessage = .ok m → m.id = message.id) ↔
      ∀ next, ending.1 = .ok next → next.id = message.id := by
    simp only [map_toMessage_eq_ok_iff]
    constructor
    · exact fun h next hnext => h next.toMessage ⟨next, hnext, rfl⟩
    · rintro h m ⟨next, hnext, rfl⟩
      exact h next hnext
  have hiff := hroute.id_eq_iff_not_renumbers
  refine ⟨⟨body, stops, ending, hop, hroute, rfl, rfl⟩, ?_, ?_, ?_, ?_, ?_⟩
  · intro k visit hk
    rw [getElem?_visitsFrom] at hk
    obtain ⟨stop, -, rfl⟩ := Option.map_eq_some_iff.mp hk
    exact ⟨Nat.zero_add k, rfl⟩
  · intro m hm
    obtain ⟨next, hnext, rfl⟩ := map_toMessage_eq_ok_iff.mp hm
    rw [length_visitsFrom, hop]
    exact ⟨hroute.length_of_ok hnext, rfl⟩
  · intro hedits
    exact hid.mpr (hiff.mpr fun visit _ => not_renumbers hedits visit).2
  · rw [hid]
    exact hiff
  · intro failure hfailure
    cases hending : ending.1 with
    | ok next =>
        rw [hending] at hfailure
        cases hfailure
    | error rejection =>
        rw [hending] at hfailure
        obtain rfl := Except.error.inj hfailure
        obtain ⟨k, interceptor, stop, t, hlength, hinterceptor, hstop, hrejects⟩ :=
          hroute.exists_rejecting hending
        refine ⟨k, ⟨k, hook, stop.1, stop.2⟩, interceptor, t, ?_, ?_, hinterceptor, hrejects⟩
        · rw [length_visitsFrom, hlength]
        · rw [getElem?_visitsFrom, hstop, Nat.zero_add]
          rfl

/-- What passes a hook is led through it, and interceptors that note their calls note those. -/
theorem exists_leads (chain : Chain σ) (hook : Hook) {message : Message} {body : Body hook.kind}
    (hop : message.op = ⟨hook.kind, body⟩) (s : σ) :
    let ending := pass chain.interceptors hook ⟨message.id, body, message.controls⟩ s
    ∃ visits, chain.Leads hook message s visits
        (ending.1.map Intercepted.toMessage, ending.2) ∧
      ∀ log, pass chain.noting.interceptors hook ⟨message.id, body, message.controls⟩ (s, log) =
        (ending.1, ending.2, log ++ visits) := by
  intro ending
  obtain ⟨stops, ending', hroute⟩ :=
    exists_route hook chain.interceptors ⟨message.id, body, message.controls⟩ s
  obtain ⟨hplain, hnoting⟩ := pass_of_route hroute
  obtain rfl : ending = ending' := hplain
  exact ⟨visitsFrom hook 0 stops, .of_route hop hroute, hnoting 0⟩

/-! ## Messages -/

/-- A message that passes a hook for requests comes out with what passed there. -/
theorem onRequest_eq (chain : Chain σ) {message : Message} {hook : RequestHook}
    {body : Body hook.kind} (h : RequestHook.ofOperation? message.op = some ⟨hook, body⟩) (s : σ) :
    let ending := pass chain.interceptors (.request hook) ⟨message.id, body, message.controls⟩ s
    chain.onRequest message s = (ending.1.map Intercepted.toMessage, ending.2) := by
  simp only [onRequest, h, passRequest_eq, map_apply]

/-- A message that passes a hook for responses comes out with what passed there. -/
theorem onResult_eq (chain : Chain σ) {message : Message} {hook : ResultHook}
    {body : Body hook.kind} (h : ResultHook.ofOperation? message.op = some ⟨hook, body⟩) (s : σ) :
    let ending := pass chain.interceptors (.result hook) ⟨message.id, body, message.controls⟩ s
    (.ok (chain.onResult message s).1, (chain.onResult message s).2) =
      (ending.1.map Intercepted.toMessage, ending.2) := by
  intro ending
  have hending : ending = pass chain.interceptors (.result hook)
    ⟨message.id, body, message.controls⟩ s := rfl
  rw [← lift_passResult] at hending
  rw [hending, onResult, h]
  rfl

/-- A message that is seen at a hook for requests is led through it. -/
theorem exists_leads_of_sees (chain : Chain σ) (message : Message) {hook : RequestHook}
    (h : hook.Sees message.op) (s : σ) :
    ∃ visits, chain.Leads (.request hook) message s visits (chain.onRequest message s) ∧
      ∀ log, chain.noting.onRequest message (s, log) =
        ((chain.onRequest message s).1, (chain.onRequest message s).2, log ++ visits) := by
  obtain ⟨body, hpass⟩ := RequestHook.exists_ofOperation?_of_sees h
  obtain ⟨visits, hleads, hnoting⟩ :=
    chain.exists_leads (.request hook) (RequestHook.eq_of_ofOperation? hpass) s
  rw [chain.onRequest_eq hpass]
  refine ⟨visits, hleads, fun log => ?_⟩
  rw [chain.noting.onRequest_eq hpass, hnoting]

/-- A message that is seen at a hook for responses is led through it. -/
theorem exists_leads_of_kind_eq (chain : Chain σ) (message : Message) {hook : ResultHook}
    (h : hook.kind = message.op.kind) (s : σ) :
    ∃ visits, chain.Leads (.result hook) message s visits
        (.ok (chain.onResult message s).1, (chain.onResult message s).2) ∧
      ∀ log, chain.noting.onResult message (s, log) =
        ((chain.onResult message s).1, (chain.onResult message s).2, log ++ visits) := by
  obtain ⟨body, hpass⟩ := ResultHook.exists_ofOperation?_of_kind_eq h
  obtain ⟨visits, hleads, hnoting⟩ :=
    chain.exists_leads (.result hook) (ResultHook.eq_of_ofOperation? hpass) s
  have hplain := chain.onResult_eq hpass s
  refine ⟨visits, hplain ▸ hleads, fun log => ?_⟩
  have hnoted := chain.noting.onResult_eq hpass (s, log)
  rw [hnoting] at hnoted
  obtain ⟨hanswer, hstate⟩ := Prod.mk.inj hplain
  obtain ⟨hnotedAnswer, hnotedState⟩ := Prod.mk.inj hnoted
  refine Prod.ext (Except.ok.inj (hnotedAnswer.trans hanswer.symm)) ?_
  rw [hnotedState, hstate]

/-- **What a chain does with a message.** Each request is seen at one hook, but those to unbind or
to abandon an operation; it is led through that hook, and its calls are the only ones that the chain
makes. A request that is not seen, and each response, goes on as it is, without a call. On the way
back each response is led through the hook for its kind, never rejected, and each request goes on as
it is, without a call. The interceptors are arbitrary: each is given the whole of what the one
before it left and may put anything in its place, also under another number. -/
theorem onRequest_onResult_leads (chain : Chain σ) (message : Message) (s : σ)
    (log : List (Visit σ)) :
    ((¬ RequestHook.Unseen message.op.kind → ∃! hook : RequestHook, hook.Sees message.op) ∧
      (∀ hook : RequestHook, hook.Sees message.op → ∃ visits,
        chain.Leads (.request hook) message s visits (chain.onRequest message s) ∧
          chain.noting.onRequest message (s, log) =
            ((chain.onRequest message s).1, (chain.onRequest message s).2, log ++ visits)) ∧
      (RequestHook.Unseen message.op.kind → chain.onRequest message s = (.ok message, s) ∧
        chain.noting.onRequest message (s, log) = (.ok message, s, log))) ∧
    (message.op.kind.isRequest = false → ∃! hook : ResultHook, hook.kind = message.op.kind) ∧
      (∀ hook : ResultHook, hook.kind = message.op.kind → ∃ visits,
        chain.Leads (.result hook) message s visits
            (.ok (chain.onResult message s).1, (chain.onResult message s).2) ∧
          chain.noting.onResult message (s, log) =
            ((chain.onResult message s).1, (chain.onResult message s).2, log ++ visits)) ∧
      (message.op.kind.isRequest = true → chain.onResult message s = (message, s) ∧
        chain.noting.onResult message (s, log) = (message, s, log)) := by
  refine ⟨⟨RequestHook.existsUnique_sees, fun hook h => ?_, fun h => ?_⟩,
    ResultHook.existsUnique_kind_eq, fun hook h => ?_, fun h => ?_⟩
  · obtain ⟨visits, hleads, hnoting⟩ := chain.exists_leads_of_sees message h s
    exact ⟨visits, hleads, hnoting log⟩
  · have hnone := RequestHook.ofOperation?_eq_none_iff.mpr h
    rw [onRequest, onRequest, hnone]
    exact ⟨rfl, rfl⟩
  · obtain ⟨visits, hleads, hnoting⟩ := chain.exists_leads_of_kind_eq message h s
    exact ⟨visits, hleads, hnoting log⟩
  · have hnone := ResultHook.ofOperation?_eq_none_iff.mpr h
    rw [onResult, onResult, hnone]
    exact ⟨rfl, rfl⟩

/-- Counts the deletions that it sees, and has another entry deleted. -/
def redirecting : Interceptor Nat where
  onRequest
    | .delete, operation => fun count => (.ok (operation.setBody "cn=b").2, count + 1)
    | _, operation => pure operation

/-- Rejects all requests. -/
def rejecting : Interceptor Nat where
  onRequest _ _ := throw (.rejected ⟨53⟩ "read only")

/-- A chain that changes a deletion, then rejects it, and would let it pass after that. -/
def readOnly : Chain Nat := ⟨[redirecting, rejecting, {}]⟩

/-- A request to delete an entry. -/
def deletion : Message := ⟨2, ⟨.deleteRequest, "cn=a"⟩, []⟩

/-- The response to it. -/
def deleted : Message := ⟨2, ⟨.deleteResponse, .ofCode ⟨0⟩⟩, []⟩

/-- The interceptors of the chain do only what they may. -/
theorem edits_of_mem_readOnly : ∀ interceptor ∈ readOnly.interceptors, interceptor.Edits := by
  intro interceptor hmem hook operation s next t h
  rw [Intercepted.edited_iff]
  simp only [readOnly, List.mem_cons, List.not_mem_nil, or_false] at hmem
  rcases hmem with rfl | rfl | rfl
  · cases hook with
    | request hook => cases hook <;> cases h <;> rfl
    | result hook => cases h; rfl
  · cases hook <;> cases h
    rfl
  · cases hook <;> cases h <;> rfl

/-- The request is rejected by the second of three interceptors, and its response passes all of
them under its number. -/
theorem onRequest_onResult_leads_readOnly :
    (RequestHook.Sees .delete deletion.op ∧ ∃ visits,
      readOnly.Leads (.request .delete) deletion 0 visits
          (.error (.rejected ⟨53⟩ "read only"), 1) ∧
        visits.length = 2) ∧
      ∃ visits, readOnly.Leads (.result .delete) deleted 0 visits (.ok deleted, 0) ∧
        visits.length = 3 ∧ ∀ visit ∈ visits, visit.given.id = deleted.id := by
  have hsees : RequestHook.Sees .delete deletion.op := ⟨rfl, fun _ => nofun⟩
  obtain ⟨⟨-, hrequest, -⟩, -⟩ := onRequest_onResult_leads readOnly deletion 0 []
  obtain ⟨-, -, hresult, -⟩ := onRequest_onResult_leads readOnly deleted 0 []
  obtain ⟨calls, hrejected, hnoted⟩ := hrequest .delete hsees
  obtain ⟨visits, hpassed, -⟩ := hresult .delete rfl
  have hlength : ([] ++ calls).length = 2 :=
    (congrArg (fun outcome => outcome.2.2.length) hnoted).symm
  have hkept := hpassed.id_eq_iff.mpr fun visit _ => not_renumbers edits_of_mem_readOnly visit
  exact ⟨⟨hsees, calls, hrejected, hlength⟩, visits, hpassed, (hpassed.of_ok deleted rfl).1,
    hkept.1⟩

/-- Puts an operation under the given number in the place of each response. -/
def renumbering (id : Int32) : Interceptor σ where
  onResult _ operation := pure { operation with id }

/-- The number of a message rests on the interceptors alone: behind one that does more than it may,
each response has the number that was put there, whatever the others left. -/
theorem onResult_push_renumbering (chain : Chain σ) (id : Int32) {message : Message}
    (h : message.op.kind.isRequest = false) (s : σ) :
    (chain.push (renumbering id)).onResult message s =
      ({ (chain.onResult message s).1 with id }, (chain.onResult message s).2) := by
  obtain ⟨hook, hsees, -⟩ := ResultHook.existsUnique_kind_eq h
  obtain ⟨body, hpass⟩ := ResultHook.exists_ofOperation?_of_kind_eq hsees
  have hpush : (chain.push (renumbering id)).passResult hook
      ⟨message.id, body, message.controls⟩ =
        chain.passResult hook ⟨message.id, body, message.controls⟩ >>= fun next =>
          pure { next with id } := by
    rw [passResult, push, List.foldlM_append]
    rfl
  simp only [onResult, hpass, hpush]
  rfl

end Chain

end DirectoryAccess
