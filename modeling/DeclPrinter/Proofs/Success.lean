/-!
# Computations that succeed

A render is a sequence of steps each of which may fail, and the first that fails ends it.
Read backwards: when the whole succeeds every step did, and when the whole fails the steps
up to some point succeeded and the next one failed.
-/

namespace DeclPrinter

variable {ε α β σ : Type}

theorem bind_eq_ok {x : Except ε α} {f : α → Except ε β} {value : β} :
    (x >>= f) = .ok value ↔ ∃ middle, x = .ok middle ∧ f middle = .ok value := by
  cases x with
  | error failure => simp [bind, Except.bind]
  | ok middle => simp [bind, Except.bind]

theorem bind_eq_error {x : Except ε α} {f : α → Except ε β} {failure : ε} :
    (x >>= f) = .error failure ↔
      x = .error failure ∨ ∃ middle, x = .ok middle ∧ f middle = .error failure := by
  cases x with
  | error failure => simp [bind, Except.bind]
  | ok middle => simp [bind, Except.bind]

theorem pure_eq_ok {first second : α} :
    (pure first : Except ε α) = .ok second ↔ first = second := by
  simp [pure, Except.pure]

theorem map_eq_ok {x : Except ε α} {f : α → β} {value : β} :
    x.map f = .ok value ↔ ∃ result, x = .ok result ∧ f result = value := by
  cases x with
  | error failure => simp [Except.map]
  | ok result => simp [Except.map]

theorem map_eq_error {x : Except ε α} {f : α → β} {failure : ε} :
    x.map f = .error failure ↔ x = .error failure := by
  cases x with
  | error other => simp [Except.map]
  | ok result => simp [Except.map]

theorem exists_of_isOk {x : Except ε α} (h : x.isOk = true) : ∃ value, x = .ok value := by
  cases x with
  | error failure => cases h
  | ok value => exact ⟨value, rfl⟩

/-- What is said of the value of a computation, if it has one, is said of a value. -/
theorem exists_of_toOption_map_eq_some {x : Except ε α} {f : α → β} {value : β}
    (h : x.toOption.map f = some value) : ∃ result, x = .ok result ∧ f result = value := by
  cases x with
  | error failure => cases h
  | ok result => exact ⟨result, rfl, Option.some.inj h⟩

/-- A list of checks that passes passes each of them. -/
theorem eq_ok_of_forM_eq_ok {f : α → Except ε Unit} {inputs : List α}
    (h : inputs.forM f = .ok ()) : ∀ input ∈ inputs, f input = .ok () := by
  induction inputs with
  | nil => simp
  | cons input rest ih =>
    obtain ⟨_, hfirst, hrest⟩ := bind_eq_ok.mp h
    intro other hother
    rcases List.mem_cons.mp hother with rfl | hmem
    · exact hfirst
    · exact ih hrest other hmem

/-- Checks that are the same one by one are the same together. -/
theorem forM_congr {f g : α → Except ε Unit} {inputs : List α}
    (h : ∀ input ∈ inputs, f input = g input) : inputs.forM f = inputs.forM g := by
  induction inputs with
  | nil => rfl
  | cons input rest ih =>
    have hrest := ih fun other hother => h other (List.mem_cons_of_mem input hother)
    show (f input >>= fun _ => rest.forM f) = (g input >>= fun _ => rest.forM g)
    rw [h input List.mem_cons_self, hrest]

/-- Each value that a list of steps yields is that of one of them. -/
theorem exists_of_mapM_eq_ok {f : α → Except ε β} {inputs : List α} {outputs : List β}
    (h : inputs.mapM f = .ok outputs) :
    ∀ output ∈ outputs, ∃ input ∈ inputs, f input = .ok output := by
  induction inputs generalizing outputs with
  | nil =>
    rw [List.mapM_nil, pure_eq_ok] at h
    subst h
    simp
  | cons input rest ih =>
    rw [List.mapM_cons, bind_eq_ok] at h
    obtain ⟨first, hfirst, h⟩ := h
    obtain ⟨others, hothers, h⟩ := bind_eq_ok.mp h
    rw [pure_eq_ok] at h
    subst h
    intro output houtput
    rcases List.mem_cons.mp houtput with rfl | hmem
    · exact ⟨input, List.mem_cons_self, hfirst⟩
    · obtain ⟨other, hother, hresult⟩ := ih hothers output hmem
      exact ⟨other, List.mem_cons_of_mem input hother, hresult⟩

/-- Each step of a list that succeeds gives one of the values. -/
theorem exists_of_mem_of_mapM_eq_ok {f : α → Except ε β} {inputs : List α} {outputs : List β}
    (h : inputs.mapM f = .ok outputs) :
    ∀ input ∈ inputs, ∃ output ∈ outputs, f input = .ok output := by
  induction inputs generalizing outputs with
  | nil => simp
  | cons input rest ih =>
    rw [List.mapM_cons, bind_eq_ok] at h
    obtain ⟨first, hfirst, h⟩ := h
    obtain ⟨others, hothers, h⟩ := bind_eq_ok.mp h
    rw [pure_eq_ok] at h
    subst h
    intro other hother
    rcases List.mem_cons.mp hother with rfl | hmem
    · exact ⟨first, List.mem_cons_self, hfirst⟩
    · obtain ⟨output, houtput, hresult⟩ := ih hothers other hmem
      exact ⟨output, List.mem_cons_of_mem first houtput, hresult⟩

/-- **A run of steps keeps what each step keeps.** The invariant may speak of the inputs that
were used so far. -/
theorem foldlM_invariant {step : σ → α → Except ε σ} (invariant : List α → σ → Prop)
    (hstep : ∀ used state input next, invariant used state → step state input = .ok next →
      invariant (used ++ [input]) next)
    {used inputs : List α} {state final : σ} (hstart : invariant used state)
    (h : inputs.foldlM step state = .ok final) : invariant (used ++ inputs) final := by
  induction inputs generalizing used state with
  | nil =>
    rw [List.foldlM_nil, pure_eq_ok] at h
    rw [List.append_nil, ← h]
    exact hstart
  | cons input rest ih =>
    rw [List.foldlM_cons, bind_eq_ok] at h
    obtain ⟨next, hnext, h⟩ := h
    have := ih (hstep used state input next hstart hnext) h
    rwa [List.append_assoc, List.singleton_append] at this

/-- **Where a run fails.** The steps before succeeded, and the next one failed. -/
theorem foldlM_eq_error {step : σ → α → Except ε σ} {inputs : List α} {state : σ}
    {failure : ε} (h : inputs.foldlM step state = .error failure) :
    ∃ before input after middle, inputs = before ++ input :: after ∧
      before.foldlM step state = .ok middle ∧ step middle input = .error failure := by
  induction inputs generalizing state with
  | nil =>
    rw [List.foldlM_nil] at h
    cases h
  | cons input rest ih =>
    -- It fails at the first input or, that one done, at a later one.
    rw [List.foldlM_cons, bind_eq_error] at h
    rcases h with h | ⟨next, hnext, h⟩
    · exact ⟨[], input, rest, state, rfl, List.foldlM_nil, h⟩
    · obtain ⟨before, other, after, middle, rfl, hbefore, hother⟩ := ih h
      refine ⟨input :: before, other, after, middle, rfl, ?_, hother⟩
      rw [List.foldlM_cons, hnext]
      exact hbefore

end DeclPrinter
