import DirectoryAccess.Proofs.Interceptor.Route

/-!
# Numbers of messages on routes

An interceptor may replace what an operation carries and change its controls, which leads
exactly to the operations with the same number (`Intercepted.edited_iff`). It is given
the number as well, and nothing keeps it from leaving another one. All interceptors on a
route are given the number that was sent, and the operation arrives with it, exactly if
none of those that are called leaves a number that it was not given
(`Route.id_eq_iff`).
-/

namespace DirectoryAccess

variable {σ : Type}

/-! ## What may be done to an operation -/

/-- What may become of an operation: what it carries may be replaced and its controls may be
changed, as often as one likes. -/
inductive Intercepted.Edited {kind : Kind} (operation : Intercepted kind) : Intercepted kind → Prop
  /-- It may be left as it is. -/
  | refl : Edited operation operation
  /-- Something else may be carried. -/
  | setBody {next} (h : Edited operation next) (body : Body kind) :
      Edited operation (next.setBody body).2
  /-- The controls may be changed. -/
  | modifyControls {next} (h : Edited operation next) (change : List Control → List Control) :
      Edited operation (next.modifyControls change)

/-- Everything but the number may be changed in an operation. -/
theorem Intercepted.edited_iff {kind : Kind} {operation next : Intercepted kind} :
    operation.Edited next ↔ next.id = operation.id := by
  constructor
  · intro h
    induction h with
    | refl => rfl
    | setBody _ _ ih => exact ih
    | modifyControls _ _ ih => exact ih
  · intro h
    obtain ⟨id, body, controls⟩ := next
    obtain rfl : id = operation.id := h
    exact (Edited.refl.setBody body).modifyControls fun _ => controls

/-- An interceptor that does nothing to what it lets pass but what may be done to it. It may still
reject requests and change the state. -/
def Interceptor.Edits (interceptor : Interceptor σ) : Prop :=
  ∀ hook operation s next t, interceptor.handle hook operation s = (.ok next, t) →
    operation.Edited next

/-- An interceptor that is called and leaves another number than it was given. -/
def Chain.Renumbers (chain : Chain σ) (visit : Visit σ) : Prop :=
  ∃ interceptor next t, chain.interceptors[visit.place]? = some interceptor ∧
    interceptor.handle visit.hook visit.given visit.state = (.ok next, t) ∧
    next.id ≠ visit.given.id

/-- Interceptors that do only what they may leave the number that they are given. -/
theorem Chain.not_renumbers {chain : Chain σ}
    (h : ∀ interceptor ∈ chain.interceptors, interceptor.Edits) (visit : Visit σ) :
    ¬ chain.Renumbers visit := by
  rintro ⟨interceptor, next, t, hinterceptor, hleft, hid⟩
  have hedits := h interceptor (List.mem_of_getElem? hinterceptor)
  exact hid (Intercepted.edited_iff.mp (hedits _ _ _ _ _ hleft))

/-! ## What is kept on a route -/

namespace Route

variable {hook : Hook} {interceptors : List (Interceptor σ)} {start : Intercepted hook.kind × σ}
  {stops : List (Intercepted hook.kind × σ)} {ending : Except Failure (Intercepted hook.kind) × σ}

/-- What holds of an operation that was sent holds of all that the interceptors are given and of
what arrives, exactly if each interceptor that is called keeps it. -/
theorem holds_iff (h : Route hook interceptors start stops ending)
    {p : Intercepted hook.kind → Prop} (hstart : p start.1) :
    ((∀ stop ∈ stops, p stop.1) ∧ ∀ next, ending.1 = .ok next → p next) ↔
      ∀ (k : Nat) (interceptor : Interceptor σ) (stop : Intercepted hook.kind × σ)
        (next : Intercepted hook.kind) (t : σ), interceptors[k]? = some interceptor →
        stops[k]? = some stop → interceptor.handle hook stop.1 stop.2 = (.ok next, t) →
        p stop.1 → p next := by
  induction h with
  | arrived =>
      constructor
      · intro _ k interceptor stop next t hinterceptor
        cases hinterceptor
      · intro _
        refine ⟨nofun, ?_⟩
        rintro next ⟨⟩
        exact hstart
  | rejected h =>
      constructor
      · intro _ k interceptor stop next t hinterceptor hstop hleft
        cases k with
        | zero =>
            obtain rfl := Option.some.inj hinterceptor
            obtain rfl := Option.some.inj hstop
            cases h.symm.trans hleft
        | succ k => cases hstop
      · intro _
        exact ⟨List.forall_mem_singleton.mpr hstart, nofun⟩
  | passed h onward ih =>
      constructor
      · rintro ⟨hstops, hending⟩
        rw [List.forall_mem_cons] at hstops
        have hnext := by
          cases onward with
          | arrived => exact hending _ rfl
          | rejected => exact hstops.2 _ (List.mem_cons_self ..)
          | passed => exact hstops.2 _ (List.mem_cons_self ..)
        have honward := (ih hnext).mp ⟨hstops.2, hending⟩
        intro k interceptor stop next t hinterceptor hstop hleft
        cases k with
        | zero =>
            obtain rfl := Option.some.inj hinterceptor
            obtain rfl := Option.some.inj hstop
            cases h.symm.trans hleft
            exact fun _ => hnext
        | succ k => exact honward k interceptor stop next t hinterceptor hstop hleft
      · intro hcalls
        have hnext := hcalls 0 _ _ _ _ rfl rfl h hstart
        obtain ⟨hstops, hending⟩ := (ih hnext).mpr fun k => hcalls (k + 1)
        exact ⟨List.forall_mem_cons.mpr ⟨hstart, hstops⟩, hending⟩

/-- The number that was sent is given to all interceptors and arrives, exactly if each interceptor
that is called leaves the number that it is given. -/
theorem id_eq_iff (h : Route hook interceptors start stops ending) :
    ((∀ stop ∈ stops, stop.1.id = start.1.id) ∧
        ∀ next, ending.1 = .ok next → next.id = start.1.id) ↔
      ∀ (k : Nat) (interceptor : Interceptor σ) (stop : Intercepted hook.kind × σ)
        (next : Intercepted hook.kind) (t : σ), interceptors[k]? = some interceptor →
        stops[k]? = some stop → interceptor.handle hook stop.1 stop.2 = (.ok next, t) →
        next.id = stop.1.id := by
  have hiff := h.holds_iff (p := fun operation => operation.id = start.1.id) rfl
  constructor
  · intro hall k interceptor stop next t hinterceptor hstop hleft
    have hgiven := hall.1 stop (List.mem_of_getElem? hstop)
    rw [hiff.mp hall k interceptor stop next t hinterceptor hstop hleft hgiven, hgiven]
  · intro hcalls
    refine hiff.mpr fun k interceptor stop next t hinterceptor hstop hleft hgiven => ?_
    rw [hcalls k interceptor stop next t hinterceptor hstop hleft, hgiven]

end Route

end DirectoryAccess
