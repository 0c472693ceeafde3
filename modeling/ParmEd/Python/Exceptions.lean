import Mathlib.Logic.Basic

/-!
# Exceptions and mutation

Python code that raises keeps every mutation made before the `raise`: `parameters.py` says
so itself ("no partial-database rollback"), and a parameter set that a failed
`load_parameters` leaves behind is still used. The model runs such code in
`EStateM PyError σ`, whose error result carries the state reached at the `raise`.

`Triple P x Q E` says that from a state satisfying `P`, `x` returns a value satisfying `Q` or
raises an exception satisfying `E`, and keeps `P` either way. `Triple.bind` and its
companions lift it through `do` blocks and loops, so that an invariant of the parameter set
is proved once per state update and then for every parser.
-/

namespace ParmEd.Python

/-- The exceptions the modelled code raises, with Python's messages. -/
inductive PyError
  | parameterError (message : String)
  | lj1264Error (message : String)
  | valueError (message : String)
  | keyError (key : String)
  | indexError (message : String)
  | typeError (message : String)
  | zeroDivisionError (message : String)
  | assertionError (message : String)
  | fileNotFoundError (message : String)
  | stopIteration
  deriving DecidableEq, Repr

/-- `ParameterError` of `parmed.exceptions`. -/
def PyError.IsParameterError : PyError → Prop
  | .parameterError _ => True
  | _ => False

/-- `AssertionError`. -/
def PyError.IsAssertion : PyError → Prop
  | .assertionError _ => True
  | _ => False

variable {ε σ α β : Type}

/-- The state an `EStateM` run ends in, whether it returned or raised. -/
def stateOf : EStateM.Result ε σ α → σ
  | .ok _ s => s
  | .error _ s => s

@[simp] theorem stateOf_ok (a : α) (s : σ) : stateOf (.ok a s : EStateM.Result ε σ α) = s := rfl

@[simp] theorem stateOf_error (e : ε) (s : σ) :
    stateOf (.error e s : EStateM.Result ε σ α) = s := rfl

/-- Whether a run returned rather than raised. -/
def returned : EStateM.Result ε σ α → Bool
  | .ok _ _ => true
  | .error _ _ => false

theorem run_bind (x : EStateM ε σ α) (f : α → EStateM ε σ β) (s : σ) :
    (x >>= f).run s = match x.run s with
      | .ok a s' => (f a).run s'
      | .error e s' => .error e s' := rfl

theorem run_bind_of_ok {x : EStateM ε σ α} {f : α → EStateM ε σ β} {s s' : σ} {a : α}
    (h : x.run s = .ok a s') : (x >>= f).run s = (f a).run s' := by
  rw [run_bind, h]

theorem run_bind_of_error {x : EStateM ε σ α} {f : α → EStateM ε σ β} {s s' : σ} {e : ε}
    (h : x.run s = .error e s') : (x >>= f).run s = .error e s' := by
  rw [run_bind, h]

/-- A bind that returned ran both parts to a return. -/
theorem run_bind_eq_ok {x : EStateM ε σ α} {f : α → EStateM ε σ β} {s s'' : σ} {b : β}
    (h : (x >>= f).run s = .ok b s'') : ∃ a s', x.run s = .ok a s' ∧ (f a).run s' = .ok b s'' := by
  rw [run_bind] at h
  cases hx : x.run s with
  | ok a s' => exact ⟨a, s', rfl, by rwa [hx] at h⟩
  | error e s' => rw [hx] at h; cases h

/-- An `Except` bind that returned had its first part return. -/
theorem ok_of_bind_eq_ok {x : Except ε α} {f : α → Except ε β} {b : β} (h : (x >>= f) = .ok b) :
    ∃ a, x = .ok a ∧ f a = .ok b := by
  cases x with
  | ok a => exact ⟨a, rfl, h⟩
  | error e => cases h

/-- A conversion that returned had a value and left the state alone. -/
theorem run_ofExcept_eq_ok {x : Except ε α} {s s' : σ} {a : α}
    (h : (MonadExcept.ofExcept x : EStateM ε σ α).run s = .ok a s') : x = .ok a ∧ s' = s := by
  cases x with
  | ok b => cases h; exact ⟨rfl, rfl⟩
  | error e => cases h

@[simp] theorem run_pure (a : α) (s : σ) : (pure a : EStateM ε σ α).run s = .ok a s := rfl

@[simp] theorem run_pure_bind (a : α) (f : α → EStateM ε σ β) (s : σ) :
    (pure a >>= f).run s = (f a).run s := rfl

@[simp] theorem run_throw (e : ε) (s : σ) : (throw e : EStateM ε σ α).run s = .error e s := rfl

@[simp] theorem run_modify (g : σ → σ) (s : σ) :
    (modify g : EStateM ε σ PUnit).run s = .ok ⟨⟩ (g s) := rfl

@[simp] theorem run_get (s : σ) : (get : EStateM ε σ σ).run s = .ok s s := rfl

@[simp] theorem run_ofExcept_ok (a : α) (s : σ) :
    (MonadExcept.ofExcept (.ok a) : EStateM ε σ α).run s = .ok a s := rfl

@[simp] theorem run_ofExcept_error (e : ε) (s : σ) :
    (MonadExcept.ofExcept (.error e) : EStateM ε σ α).run s = .error e s := rfl

/-! ## Triples -/

/-- From a state satisfying `P`, `x` either returns a value satisfying `Q` or raises an
exception satisfying `E`, and in both cases ends in a state satisfying `P`. -/
def Triple (P : σ → Prop) (x : EStateM ε σ α) (Q : α → Prop) (E : ε → Prop) : Prop :=
  ∀ s, P s → match x.run s with
    | .ok a s' => Q a ∧ P s'
    | .error e s' => E e ∧ P s'

namespace Triple

variable {P : σ → Prop} {Q : α → Prop} {E : ε → Prop}

theorem pure {a : α} (h : Q a) : Triple P (Pure.pure a : EStateM ε σ α) Q E :=
  fun _ hs => ⟨h, hs⟩

theorem skip {a : α} : Triple P (Pure.pure a : EStateM ε σ α) (fun _ => True) E := pure trivial

theorem throw {e : ε} (h : E e) : Triple P (MonadExcept.throw e : EStateM ε σ α) Q E :=
  fun _ hs => ⟨h, hs⟩

theorem throw_bind {e : ε} {f : β → EStateM ε σ α} (h : E e) :
    Triple P (MonadExcept.throw e >>= f) Q E :=
  fun _ hs => ⟨h, hs⟩

theorem get : Triple P (MonadState.get : EStateM ε σ σ) P E := fun _ hs => ⟨hs, hs⟩

theorem modify {g : σ → σ} (hg : ∀ s, P s → P (g s)) :
    Triple P (modify g : EStateM ε σ PUnit) (fun _ => True) E :=
  fun s hs => ⟨trivial, hg s hs⟩

theorem ofExcept {x : Except ε α} (hok : ∀ a, x = .ok a → Q a) (herr : ∀ e, x = .error e → E e) :
    Triple P (MonadExcept.ofExcept x : EStateM ε σ α) Q E := by
  cases x with
  | ok a => exact fun _ hs => ⟨hok a rfl, hs⟩
  | error e => exact fun _ hs => ⟨herr e rfl, hs⟩

theorem bind {R : β → Prop} {x : EStateM ε σ β} {f : β → EStateM ε σ α}
    (hx : Triple P x R E) (hf : ∀ b, R b → Triple P (f b) Q E) : Triple P (x >>= f) Q E := by
  intro s hs
  rw [run_bind]
  have := hx s hs
  revert this
  cases x.run s with
  | ok b s' => exact fun ⟨hb, hs'⟩ => hf b hb s' hs'
  | error e s' => exact id

theorem mono {x : EStateM ε σ α} {Q' : α → Prop} {E' : ε → Prop} (h : Triple P x Q E)
    (hQ : ∀ a, Q a → Q' a) (hE : ∀ e, E e → E' e) : Triple P x Q' E' := by
  intro s hs
  have := h s hs
  revert this
  cases x.run s with
  | ok a s' => exact fun ⟨ha, hs'⟩ => ⟨hQ a ha, hs'⟩
  | error e s' => exact fun ⟨he, hs'⟩ => ⟨hE e he, hs'⟩

theorem foldlM {I : β → Prop} {γ : Type} {f : β → γ → EStateM ε σ β} {b : β} {l : List γ}
    (hf : ∀ b c, c ∈ l → I b → Triple P (f b c) I E) (hb : I b) :
    Triple P (l.foldlM f b) I E := by
  induction l generalizing b with
  | nil => exact pure hb
  | cons c l ih =>
    exact bind (hf b c (List.mem_cons_self c l) hb)
      fun b' hb' => ih (fun b c hc => hf b c (List.mem_cons_of_mem _ hc)) hb'

theorem mapM {γ : Type} {f : γ → EStateM ε σ β} {l : List γ}
    (hf : ∀ c, c ∈ l → Triple P (f c) (fun _ => True) E) :
    Triple P (l.mapM f) (fun _ => True) E := by
  induction l with
  | nil => exact pure trivial
  | cons c l ih =>
    rw [List.mapM_cons]
    exact bind (hf c (List.mem_cons_self c l)) fun _ _ =>
      bind (ih fun c hc => hf c (List.mem_cons_of_mem _ hc)) fun _ _ => pure trivial

theorem forIn {γ : Type} {f : γ → PUnit → EStateM ε σ (ForInStep PUnit)} {l : List γ}
    (hf : ∀ c, c ∈ l → Triple P (f c ⟨⟩) (fun _ => True) E) :
    Triple P (ForIn.forIn l ⟨⟩ f) (fun _ => True) E := by
  induction l with
  | nil => exact pure trivial
  | cons c l ih =>
    simp only [List.forIn_cons]
    refine bind (hf c (List.mem_cons_self c l)) fun r _ => ?_
    cases r with
    | done => exact pure trivial
    | yield => exact ih fun c hc => hf c (List.mem_cons_of_mem _ hc)

/-- What a triple says of the state a run leaves, whether it returned or raised. -/
theorem stateOf_run {x : EStateM ε σ α} {s : σ} (hx : Triple P x Q E) (hs : P s) :
    P (stateOf (x.run s)) := by
  have := hx s hs
  revert this
  cases x.run s <;> exact And.right

/-- What a triple says of a run that returned. -/
theorem of_run_ok {x : EStateM ε σ α} {s s' : σ} {a : α} (hx : Triple P x Q E) (hs : P s)
    (h : x.run s = .ok a s') : Q a ∧ P s' := by
  have := hx s hs
  rwa [h] at this

/-- What a triple says of a run that raised. -/
theorem of_run_error {x : EStateM ε σ α} {s s' : σ} {e : ε} (hx : Triple P x Q E) (hs : P s)
    (h : x.run s = .error e s') : E e ∧ P s' := by
  have := hx s hs
  rwa [h] at this

end Triple

end ParmEd.Python
