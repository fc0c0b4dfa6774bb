import DirectoryAccess.Proofs.Interceptor.Dispatch

/-!
# Credentials at the hooks for binding

Simple credentials are looked at apart from those of a mechanism, at a hook of their own. The
hook is chosen once, by the credentials that come in, so interceptors behind one that
replaces credentials by those of the other sort are given them at the wrong hook
(`Chain.onRequest_misled`). That is the only way in which it happens
(`Chain.onRequest_bind_fits_iff`).
-/

namespace DirectoryAccess

variable {σ : Type}

/-- Whether a hook is the one for what it is given. For credentials there are two. -/
def Hook.Fits : (hook : Hook) → Intercepted hook.kind → Prop
  | .request .simpleBind, operation => operation.body.credentials.isSasl = false
  | .request .saslBind, operation => operation.body.credentials.isSasl = true
  | _, _ => True

namespace RequestHook

/-- The hook for binding with the given credentials. -/
def ofCredentials (credentials : Credentials) : RequestHook :=
  if credentials.isSasl then .saslBind else .simpleBind

/-- A request to bind is seen at the hook for its credentials. -/
theorem sees_ofCredentials (request : BindRequest) :
    (ofCredentials request.credentials).Sees ⟨.bindRequest, request⟩ := by
  cases h : request.credentials.isSasl with
  | true =>
      rw [ofCredentials, if_pos h]
      refine ⟨rfl, ?_⟩
      rintro other ⟨⟩
      exact iff_of_true rfl h
  | false =>
      rw [ofCredentials, if_neg (Bool.eq_false_iff.mp h)]
      refine ⟨rfl, ?_⟩
      rintro other ⟨⟩
      exact iff_of_false (by decide) (Bool.eq_false_iff.mp h)

/-- The hook for some credentials fits them. -/
theorem fits_of_sees {hook : RequestHook} {body : Body hook.kind}
    (h : hook.Sees ⟨hook.kind, body⟩) (id : Int32) (controls : List Control) :
    (Hook.request hook).Fits ⟨id, body, controls⟩ := by
  cases hook with
  | simpleBind =>
      exact Bool.eq_false_iff.mpr fun hsasl => absurd ((h.2 body rfl).mpr hsasl) (by decide)
  | saslBind => exact (h.2 body rfl).mp rfl
  | _ => trivial

end RequestHook

namespace Chain

/-- An interceptor that is called with credentials that fit the hook and leaves some that do not. -/
def Misleads (chain : Chain σ) (visit : Visit σ) : Prop :=
  visit.hook.Fits visit.given ∧ ∃ interceptor next t,
    chain.interceptors[visit.place]? = some interceptor ∧
      interceptor.handle visit.hook visit.given visit.state = (.ok next, t) ∧
      ¬ visit.hook.Fits next

namespace Leads

variable {chain : Chain σ} {hook : Hook} {message : Message} {s : σ} {visits : List (Visit σ)}
  {outcome : Except Failure Message × σ}

/-- Interceptors are called in their places only. -/
theorem place_lt (h : chain.Leads hook message s visits outcome) {visit : Visit σ}
    (hmem : visit ∈ visits) : visit.place < chain.size := by
  obtain ⟨body, stops, ending, -, hroute, rfl, -⟩ := h.route
  obtain ⟨k, stop, hk, rfl⟩ := mem_visitsFrom.mp hmem
  obtain ⟨hlt, -⟩ := List.getElem?_eq_some_iff.mp hk
  rw [Nat.zero_add]
  exact Nat.lt_of_lt_of_le hlt hroute.length_le

/-- Where the message fits the hook and an interceptor is given what does not, one before it
misleads. -/
theorem exists_misleads (h : chain.Leads hook message s visits outcome)
    (hfits : ∀ body, message.op = ⟨hook.kind, body⟩ →
      hook.Fits ⟨message.id, body, message.controls⟩)
    {visit : Visit σ} (hmem : visit ∈ visits) (hmisfits : ¬ visit.hook.Fits visit.given) :
    ∃ earlier ∈ visits, earlier.place < visit.place ∧ chain.Misleads earlier := by
  obtain ⟨body, stops, ending, hop, hroute, rfl, -⟩ := h.route
  obtain ⟨k, stop, hk, rfl⟩ := mem_visitsFrom.mp hmem
  obtain ⟨j, hj, interceptor, before, after, t, hinterceptor, hbefore, hlike, hleft, hunlike⟩ :=
    hroute.exists_change (hfits body hop) hk hmisfits
  refine ⟨⟨0 + j, hook, before.1, before.2⟩,
    mem_visitsFrom.mpr ⟨j, before, hbefore, rfl⟩, Nat.add_lt_add_left hj 0, hlike, interceptor,
    after, t, ?_, hleft, hunlike⟩
  rw [Nat.zero_add]
  exact hinterceptor

/-- Behind an interceptor that misleads, the next one is given what does not fit the hook. -/
theorem exists_misfit (h : chain.Leads hook message s visits outcome) {visit : Visit σ}
    (hmem : visit ∈ visits) (hmisleads : chain.Misleads visit)
    (hnext : visit.place + 1 < chain.size) :
    ∃ next ∈ visits, next.place = visit.place + 1 ∧ ¬ next.hook.Fits next.given := by
  obtain ⟨body, stops, ending, -, hroute, rfl, -⟩ := h.route
  obtain ⟨k, stop, hk, rfl⟩ := mem_visitsFrom.mp hmem
  obtain ⟨-, interceptor, left, t, hinterceptor, hleft, hmisfits⟩ := hmisleads
  rw [Nat.zero_add] at hinterceptor hnext
  have hstop := hroute.getElem?_succ hinterceptor (List.getElem?_eq_getElem hnext) hk hleft
  exact ⟨⟨0 + (k + 1), hook, left, t⟩, mem_visitsFrom.mpr ⟨k + 1, (left, t), hstop, rfl⟩, rfl,
    hmisfits⟩

end Leads

/-- **Credentials at their hooks.** A request to bind is seen at one hook, that for its credentials.
All interceptors are given credentials that fit the hook, exactly if none of them but the last
replaces such credentials by others. -/
theorem onRequest_bind_fits_iff (chain : Chain σ) (id : Int32) (request : BindRequest)
    (controls : List Control) (s : σ) (log : List (Visit σ)) :
    ∃ visits, (chain.noting.onRequest ⟨id, ⟨.bindRequest, request⟩, controls⟩ (s, log)).2.2 =
        log ++ visits ∧
      (∀ visit ∈ visits, visit.hook = .request (.ofCredentials request.credentials)) ∧
      ((∀ visit ∈ visits, visit.hook.Fits visit.given) ↔
        ∀ visit ∈ visits, visit.place + 1 < chain.size → ¬ chain.Misleads visit) := by
  have hsees := RequestHook.sees_ofCredentials request
  obtain ⟨visits, hleads, hnoting⟩ :=
    chain.exists_leads_of_sees ⟨id, ⟨.bindRequest, request⟩, controls⟩ hsees s
  refine ⟨visits, congrArg (·.2.2) (hnoting log), ?_, ?_⟩
  · intro visit hmem
    obtain ⟨k, hk⟩ := List.getElem?_of_mem hmem
    exact (hleads.in_order k visit hk).2
  constructor
  · intro hfits visit hmem hnext hmisleads
    obtain ⟨next, hfollows, -, hmisfits⟩ := hleads.exists_misfit hmem hmisleads hnext
    exact hmisfits (hfits next hfollows)
  · intro h visit hmem
    by_contra hmisfits
    have hfits (body : Body (Hook.request (.ofCredentials request.credentials)).kind)
        (hop : (⟨.bindRequest, request⟩ : Operation) = ⟨_, body⟩) :
        (Hook.request (.ofCredentials request.credentials)).Fits ⟨id, body, controls⟩ :=
      RequestHook.fits_of_sees (hop ▸ hsees) id controls
    obtain ⟨earlier, hearlier, hlt, hmisleads⟩ := hleads.exists_misleads hfits hmem hmisfits
    exact h earlier hearlier (Nat.lt_of_le_of_lt hlt (hleads.place_lt hmem)) hmisleads

/-- Replaces a password by a mechanism that needs none. -/
def replacing : Interceptor Unit where
  onRequest
    | .simpleBind, operation =>
      pure (operation.setBody { operation.body with credentials := .sasl "EXTERNAL" none }).2
    | _, operation => pure operation

/-- The calls that are made for a request to bind with a password. -/
def passwordVisits (interceptors : List (Interceptor Unit)) : List (Visit Unit) :=
  ((⟨interceptors⟩ : Chain Unit).noting.onRequest
    ⟨1, ⟨.bindRequest, .ofCredentials "cn=admin" (.simple [0x78])⟩, []⟩ ((), [])).2.2

/-- An interceptor that replaces a password does no harm where it is the last. -/
theorem onRequest_bind_fits_iff_replacedLast :
    (passwordVisits [{}, replacing]).length = 2 ∧
      ∀ visit ∈ passwordVisits [{}, replacing], visit.hook.Fits visit.given := by
  obtain ⟨visits, hcalls, -, hiff⟩ := onRequest_bind_fits_iff ⟨[{}, replacing]⟩ 1
    (.ofCredentials "cn=admin" (.simple [0x78])) [] () []
  obtain rfl : passwordVisits [{}, replacing] = visits := hcalls
  refine ⟨rfl, hiff.mpr ?_⟩
  intro visit hmem hnext hmisleads
  rcases List.mem_cons.mp hmem with rfl | hmem
  · obtain ⟨hfits, interceptor, left, t, hfirst, hleft, hmisfits⟩ := hmisleads
    obtain rfl := Option.some.inj hfirst
    cases hleft
    exact hmisfits hfits
  · obtain rfl := List.mem_singleton.mp hmem
    exact absurd hnext (by decide)

/-- Behind an interceptor that replaces a password, the next one is given the credentials of a
mechanism at the hook for passwords. -/
theorem onRequest_misled :
    ∃ visit ∈ passwordVisits [replacing, {}], visit.hook = .request .simpleBind ∧
      ¬ visit.hook.Fits visit.given := by
  refine ⟨⟨1, .request .simpleBind,
    ⟨1, .ofCredentials "cn=admin" (.sasl "EXTERNAL" none), []⟩, ()⟩, ?_, rfl, nofun⟩
  exact List.mem_cons_of_mem _ (List.mem_cons_self ..)

end Chain

end DirectoryAccess
