import ScriptValues.Proofs.Evolution

/-!
# The histories of futures in a script

A run of a script is a list of moments, each with the state before, the action, the answer and the
state after. What a moment means to one future is read off them, and so every run gives every future
a history, which leads along the stages of its life.

* `Script.trace`: the moments of a run.
* `Script.history`: what happened to one future.
* `Script.evolves_perform`: every action takes every future along its life.
* `Script.life_of_trace`: so does every run.
-/

namespace ScriptValues

namespace Script

/-- One step that answered. -/
structure Moment where
  before : State
  action : Action
  answer : Answer
  after : State

/-- The steps of a script, until it ends or is stopped. -/
def trace : List Action → State → List Moment
  | [], _ => []
  | action :: rest, s =>
    match step action s with
    | some (answer, s') => ⟨s, action, answer, s'⟩ :: trace rest s'
    | none => []

/-- The state in which a script ends or is stopped. -/
def final : List Action → State → State
  | [], s => s
  | action :: rest, s =>
    match step action s with
    | some (_, s') => final rest s'
    | none => s

def State.future? (s : State) (name : String) : Option FutureId :=
  match Entries.lookup? name s.bindings with
  | some (.future id) => some id
  | _ => none

def State.promised? (s : State) (name : String) : Option FutureId :=
  Entries.lookup? name s.promises

/-- What a delivery by a promise of this name means, if there is such a promise. -/
def State.handedOver (s : State) (name : String) (v : Value) (id : FutureId) : List Happening :=
  match s.promised? name with
  | some promised =>
    match s.world.futures.deliver promised v with
    | .ok _ => Happening.onlyAt (.delivered v) (some promised) id
    | .error v => Happening.onlyAt (.refused v) (some promised) id
  | none => []

/-- What an action that answered means to one future; `s` is the state after the release and `s'`
the state after the action. -/
def happenings (s : State) (action : Action) (answer : Answer) (s' : State) (id : FutureId) :
    List Happening :=
  match action, answer with
  | .call builtin arguments _, .value v =>
    match evaluateAll arguments s with
    | some (values, s₁) => s.world.futures.born s₁.world.futures id ++
        Happening.onlyAt (.awaited v) (builtin.awaited? values) id
    | none => []
  | .deferred name, _ => Happening.onlyAt .abandoned (s.promised? name) id ++
      s.world.futures.born s'.world.futures id
  | .deliver promise e, answer =>
    match evaluate e s, answer with
    | some (v, s₁), .delivered => s.world.futures.born s₁.world.futures id ++
        Happening.onlyAt (.delivered v) (s.promised? promise) id
    | some (_, s₁), .undelivered v => s.world.futures.born s₁.world.futures id ++
        Happening.onlyAt (.refused v) (s.promised? promise) id
    | some (_, s₁), _ => s.world.futures.born s₁.world.futures id
    | none, _ => []
  | .abandon promise, _ => Happening.onlyAt .abandoned (s.promised? promise) id
  | .await future _, .value v => Happening.onlyAt (.awaited v) (s.future? future) id
  | .tryRead future, .tried v => Happening.onlyAt (.tried v) (s.future? future) id
  | .isResolved future, .flag b => Happening.onlyAt (.asked b) (s.future? future) id
  | .awaitConcurrently future _ value, .values vs =>
    (match value with
      | some e =>
        match evaluate e s with
        | some (v, s₁) => s.world.futures.born s₁.world.futures id ++ s₁.handedOver future v id
        | none => []
      | none => Happening.onlyAt .abandoned (s.promised? future) id) ++
      vs.flatMap fun v => Happening.onlyAt (.awaited v) (s.future? future) id
  | _, _ => s.world.futures.born s'.world.futures id

-- every action below is read off its own equation
attribute [local simp] happenings

def Moment.happenings (m : Moment) (id : FutureId) : List Happening :=
  Script.happenings m.before.release m.action m.answer m.after id

/-- What happened to one future, from first to last. -/
def history (id : FutureId) (moments : List Moment) : List Happening :=
  moments.flatMap fun m => m.happenings id

/-! ## The parts of an action -/

variable {s s' : State} {id : FutureId} {name : String} {v : Value}

/-- Looking at the state changes nothing. -/
theorem get_bind {α : Type} (f : State → Run α) (s : State) : (get >>= f) s = f s s := rfl

theorem State.Sound.refl (hs : s.Sound) : Evolves s (fun _ => []) s :=
  hs.evolves_of_bindings rfl rfl fun _ hb => .inl hb

/-- Evaluating makes futures, and a value that leads to no released one. -/
theorem evaluate_eq_some {e : Expression} (hs : s.Sound) (h : evaluate e s = some (v, s')) :
    ∃ fs, s.world.futures.Makes fs ∧ s' = s.withFutures fs ∧ fs.Keeps v := by
  obtain ⟨⟨w, fs⟩, he, h⟩ := Option.map_eq_some_iff.1 h
  obtain ⟨rfl, rfl⟩ := Prod.mk.inj h
  obtain ⟨hm, hk⟩ := Expression.evaluate_makes e (fun _ _ => hs.lookup) he
  exact ⟨fs, hm, rfl, hk⟩

theorem evolves_evaluate {e : Expression} (hs : s.Sound) (h : evaluate e s = some (v, s')) :
    Evolves s (s.world.futures.born s'.world.futures) s' ∧ s'.world.futures.Keeps v ∧
      s'.bindings = s.bindings ∧ s'.promises = s.promises := by
  obtain ⟨fs, hm, rfl, hk⟩ := evaluate_eq_some hs h
  exact ⟨hs.evolves_makes hm, hk, rfl, rfl⟩

/-- Evaluating uses no promise up. -/
theorem promised_evaluate {e : Expression} (hs : s.Sound) (h : evaluate e s = some (v, s'))
    (name : String) : s'.promised? name = s.promised? name := by
  rw [State.promised?, State.promised?, (evolves_evaluate hs h).2.2.2]

theorem evolves_evaluateAll {es : List Expression} {vs : List Value} (hs : s.Sound)
    (h : evaluateAll es s = some (vs, s')) :
    Evolves s (s.world.futures.born s'.world.futures) s' ∧ (∀ v ∈ vs, s'.world.futures.Keeps v) ∧
      s'.bindings = s.bindings ∧ s'.promises = s.promises := by
  obtain ⟨⟨ws, fs⟩, he, h⟩ := Option.map_eq_some_iff.1 h
  obtain ⟨rfl, rfl⟩ := Prod.mk.inj h
  obtain ⟨hm, hk⟩ := Expression.evaluateItems_makes es (fun _ _ => hs.lookup) he
  exact ⟨hs.evolves_makes hm, hk, rfl, rfl⟩

/-- Storing a value leaves the futures alone. -/
theorem evolves_store {name : Option String} {u : Unit} (hs : s.Sound)
    (hv : s.world.futures.Keeps v) (h : store name v s = some (u, s')) :
    Evolves s (fun _ => []) s' ∧ s'.world = s.world := by
  cases name with
  | none =>
    obtain ⟨-, rfl⟩ := Prod.mk.inj (pure_eq_some.1 h)
    exact ⟨hs.refl, rfl⟩
  | some name =>
    obtain ⟨-, rfl⟩ := Prod.mk.inj (Option.some.inj h)
    refine ⟨hs.evolves_of_bindings rfl rfl fun b hb => ?_, rfl⟩
    rcases Entries.mem_insert hb with rfl | hb
    · exact .inr hv
    · exact .inl hb

/-- The future in a variable is not released. -/
theorem futureIn_eq_some (h : futureIn name s = some (id, s')) :
    s.future? name = some id ∧ s = s' := by
  unfold futureIn at h
  rw [get_bind] at h
  unfold State.future?
  cases hl : Entries.lookup? name s.bindings with
  | none =>
    rw [hl] at h
    cases h
  | some w =>
    rw [hl] at h
    cases w with
    | future other =>
      obtain ⟨rfl, rfl⟩ := Prod.mk.inj (pure_eq_some.1 h)
      exact ⟨rfl, rfl⟩
    | _ => cases h

theorem lookup_of_future (h : s.future? name = some id) :
    Entries.lookup? name s.bindings = some (.future id) := by
  unfold State.future? at h
  split at h
  · next hl => rw [hl, Option.some.inj h]
  · cases h

theorem futureIn_of_future (h : s.future? name = some id) : futureIn name s = some (id, s) := by
  unfold futureIn
  rw [get_bind, lookup_of_future h]
  rfl

theorem State.Sound.alive_of_future (hs : s.Sound) (h : s.future? name = some id) :
    s.world.futures.Alive id :=
  hs.lookup (lookup_of_future h) _ (Value.mem_handles_future.2 rfl)

/-- Reading a future puts the answer into its cache, and the answer leads to no released one. -/
theorem evolves_awaited (hs : s.Sound) {fs : Futures}
    (h : s.world.futures.read? id = some (v, fs)) :
    Evolves s (Happening.onlyAt (.awaited v) (some id)) (s.withFutures fs) ∧ fs.Keeps v := by
  obtain ⟨ha, rfl⟩ := Futures.read_eq_some.1 h
  have hevolves := hs.evolves_read ha fun _ => .awaited ha
  refine ⟨hevolves, fun other ho => hevolves.sound.closed id other ?_⟩
  show (s.world.futures.set id (.resolved v)).Holds id other
  rw [Futures.holds_set (Futures.alive_of_answer ha), if_pos rfl]
  exact ho

theorem read_eq_some (h : read id s = some (v, s')) :
    ∃ fs, s.world.futures.read? id = some (v, fs) ∧ s' = s.withFutures fs := by
  unfold read at h
  rw [get_bind] at h
  cases hr : s.world.futures.read? id with
  | none =>
    rw [hr] at h
    cases h
  | some answer =>
    obtain ⟨w, fs⟩ := answer
    rw [hr] at h
    obtain ⟨rfl, rfl⟩ := Prod.mk.inj (Option.some.inj h)
    exact ⟨fs, rfl, rfl⟩

theorem evolves_readTimes {n : Nat} {vs : List Value} (hs : s.Sound)
    (h : readTimes id n s = some (vs, s')) :
    Evolves s (fun other => vs.flatMap fun v => Happening.onlyAt (.awaited v) (some id) other)
      s' := by
  induction n generalizing s vs with
  | zero =>
    obtain ⟨rfl, rfl⟩ := Prod.mk.inj (pure_eq_some.1 h)
    exact hs.refl
  | succ n ih =>
    obtain ⟨v, s₁, hread, h⟩ := bind_eq_some.1 h
    obtain ⟨vs', s₂, hrest, h⟩ := bind_eq_some.1 h
    obtain ⟨rfl, rfl⟩ := Prod.mk.inj (pure_eq_some.1 h)
    obtain ⟨fs, hr, rfl⟩ := read_eq_some hread
    have hfirst := (evolves_awaited hs hr).1
    exact hfirst.trans (ih hfirst.sound hrest)

/-- The state after the promise of this name was dropped, if there is such a promise. -/
def State.letGo (s : State) (name : String) : State :=
  match s.promised? name with
  | some promised => (s.without name).withFutures (s.world.futures.abandon promised)
  | none => s

theorem abandonPromise_run (name : String) (s : State) :
    abandonPromise name s = some ((s.promised? name).isSome, s.letGo name) := by
  show (match s.promised? name with
    | some id => get >>= fun s => setFutures (s.world.futures.abandon id) >>= fun _ => pure true
    | none => pure false : Run Bool) (s.without name) = _
  unfold State.letGo
  cases hp : s.promised? name with
  | some promised => rfl
  | none =>
    rw [State.without_of_lookup_eq_none hp]
    rfl

/-- Dropping a promise, if there is one of this name. -/
theorem State.Sound.evolves_letGo (hs : s.Sound) (name : String) :
    Evolves s (Happening.onlyAt .abandoned (s.promised? name)) (s.letGo name) := by
  unfold State.letGo
  cases hp : s.promised? name with
  | some promised => exact hs.evolves_abandon hp
  | none => exact hs.refl

theorem State.promised_letGo : (s.letGo name).promised? name = none := by
  unfold State.letGo
  cases hp : s.promised? name with
  | none => exact hp
  | some promised =>
    show Entries.lookup? name (Entries.erase name s.promises) = none
    rw [Entries.lookup_erase, if_pos rfl]

theorem State.length_letGo :
    (s.letGo name).world.futures.cells.length = s.world.futures.cells.length := by
  unfold State.letGo
  cases s.promised? name with
  | none => rfl
  | some promised =>
    show (s.world.futures.abandon promised).cells.length = _
    unfold Futures.abandon
    split
    · exact List.length_set
    · rfl

/-- The state after a delivery by the promise of this name, if there is such a promise. -/
def State.handOver (s : State) (name : String) (v : Value) : State :=
  match s.promised? name with
  | some promised =>
    match s.world.futures.deliver promised v with
    | .ok fs => (s.without name).withFutures fs
    | .error _ => s.without name
  | none => s

/-- Delivering by the promise of this name, if there is one. -/
theorem State.Sound.evolves_handOver (hs : s.Sound) (hv : s.world.futures.Keeps v) :
    Evolves s (s.handedOver name v) (s.handOver name v) := by
  unfold State.handedOver State.handOver
  cases hp : s.promised? name with
  | none => exact hs.refl
  | some promised =>
    cases hd : s.world.futures.deliver promised v with
    | ok fs =>
      simp only [hd]
      exact hs.evolves_deliver hp hv hd
    | error w =>
      simp only [hd]
      exact (hs.evolves_refused hp hd).2

/-! ## Every action -/

variable {answer : Answer}

/-- Evaluating an expression and storing the value. -/
theorem evolves_evaluate_store {e : Expression} {name : Option String} {u : Unit} {s₁ : State}
    (hs : s.Sound) (hv : evaluate e s = some (v, s₁)) (hstore : store name v s₁ = some (u, s')) :
    Evolves s (s.world.futures.born s'.world.futures) s' := by
  obtain ⟨hmade, hk, -, -⟩ := evolves_evaluate hs hv
  obtain ⟨hstored, hworld⟩ := evolves_store hmade.sound hk hstore
  refine (hmade.trans hstored).congr fun id => ?_
  rw [List.append_nil, ← hworld]

theorem evolves_assign {e : Expression} (hs : s.Sound)
    (h : perform (.assign name e) s = some (answer, s')) :
    Evolves s (happenings s (.assign name e) answer s') s' := by
  obtain ⟨v, s₁, hv, h⟩ := bind_eq_some.1 h
  obtain ⟨_, s₂, hstore, h⟩ := bind_eq_some.1 h
  obtain ⟨rfl, rfl⟩ := Prod.mk.inj (pure_eq_some.1 h)
  exact evolves_evaluate_store hs hv hstore

theorem evolves_ready {e : Expression} (hs : s.Sound)
    (h : perform (.ready name e) s = some (answer, s')) :
    Evolves s (happenings s (.ready name e) answer s') s' := by
  obtain ⟨v, s₁, hv, h⟩ := bind_eq_some.1 h
  obtain ⟨_, s₂, hstore, h⟩ := bind_eq_some.1 h
  obtain ⟨rfl, rfl⟩ := Prod.mk.inj (pure_eq_some.1 h)
  exact evolves_evaluate_store hs hv hstore

theorem evolves_call {b : Builtin} {es : List Expression} {result : Option String} (hs : s.Sound)
    (h : perform (.call b es result) s = some (answer, s')) :
    Evolves s (happenings s (.call b es result) answer s') s' := by
  obtain ⟨values, s₁, hvalues, h⟩ := bind_eq_some.1 h
  rw [get_bind] at h
  obtain ⟨hmade, hk, -, -⟩ := evolves_evaluateAll hs hvalues
  cases hcall : b.call values s₁.world with
  | mk r world =>
    rw [hcall] at h
    cases r with
    | error halt => cases h
    | ok v =>
      obtain ⟨_, s₂, hset, h⟩ := bind_eq_some.1 h
      obtain ⟨-, rfl⟩ := Prod.mk.inj (Option.some.inj hset)
      obtain ⟨_, s₃, hstore, h⟩ := bind_eq_some.1 h
      obtain ⟨rfl, rfl⟩ := Prod.mk.inj (pure_eq_some.1 h)
      have hcalled : Evolves s₁ (Happening.onlyAt (.awaited v) (b.awaited? values))
          { s₁ with world := world } ∧ world.futures.Keeps v := by
        cases ha : b.awaited? values with
        | none =>
          obtain ⟨hf, hh⟩ := Builtin.call_not_awaited ha hcall
          refine ⟨hmade.sound.evolves_of_bindings hf rfl fun _ hb => .inl hb, fun id hid => ?_⟩
          obtain ⟨w, hw, hid⟩ := List.mem_flatMap.1 (hh hid)
          rw [hf]
          exact hk w hw id hid
        | some id =>
          obtain ⟨hread, hkeeps⟩ := evolves_awaited hmade.sound (Builtin.call_awaited ha hcall)
          have hrest : Evolves (s₁.withFutures world.futures) (fun _ => [])
              { s₁ with world := world } :=
            hread.sound.evolves_of_bindings rfl rfl fun _ hb => .inl hb
          exact ⟨(hread.trans hrest).congr fun _ => List.append_nil _, hkeeps⟩
      obtain ⟨hstored, -⟩ := evolves_store hcalled.1.sound hcalled.2 hstore
      refine ((hmade.trans hcalled.1).trans hstored).congr fun id => ?_
      simp only [happenings, hvalues, List.append_nil]

theorem evolves_inspect {e : Expression} (hs : s.Sound)
    (h : perform (.inspect e) s = some (answer, s')) :
    Evolves s (happenings s (.inspect e) answer s') s' := by
  obtain ⟨v, s₁, hv, h⟩ := bind_eq_some.1 h
  obtain ⟨rfl, rfl⟩ := Prod.mk.inj (pure_eq_some.1 h)
  exact (evolves_evaluate hs hv).1

theorem evolves_equals {a b : Expression} (hs : s.Sound)
    (h : perform (.equals a b) s = some (answer, s')) :
    Evolves s (happenings s (.equals a b) answer s') s' := by
  obtain ⟨v, s₁, hv, h⟩ := bind_eq_some.1 h
  obtain ⟨w, s₂, hw, h⟩ := bind_eq_some.1 h
  obtain ⟨rfl, rfl⟩ := Prod.mk.inj (pure_eq_some.1 h)
  obtain ⟨fs, hm, rfl, -⟩ := evaluate_eq_some hs hv
  obtain ⟨fs', hm', rfl, -⟩ := evaluate_eq_some (hs.evolves_makes hm).sound hw
  exact hs.evolves_makes (hm.trans hm')

theorem evolves_drop (hs : s.Sound) (h : perform (.drop name) s = some (answer, s')) :
    Evolves s (happenings s (.drop name) answer s') s' := by
  obtain ⟨rfl, rfl⟩ := Prod.mk.inj (Option.some.inj h)
  have hdrop : Evolves s (fun _ => []) { s with bindings := Entries.erase name s.bindings } :=
    hs.evolves_of_bindings rfl rfl fun _ hb => .inl (Entries.mem_erase.1 hb).1
  exact hdrop.congr fun id => (Futures.born_self _ _).symm

theorem evolves_deferred (hs : s.Sound) (h : perform (.deferred name) s = some (answer, s')) :
    Evolves s (happenings s (.deferred name) answer s') s' := by
  obtain ⟨b, s₁, hab, h⟩ := bind_eq_some.1 h
  rw [abandonPromise_run] at hab
  obtain ⟨-, rfl⟩ := Prod.mk.inj (Option.some.inj hab)
  obtain ⟨rfl, rfl⟩ := Prod.mk.inj (Option.some.inj h)
  have hgone := hs.evolves_letGo name
  refine (hgone.trans (hgone.sound.evolves_promise State.promised_letGo)).congr fun id => ?_
  rw [Futures.born, State.length_letGo]
  rfl

/-- A delivery evaluates the value, uses the promise up, and hands the value over or back. -/
theorem deliver_run (name : String) (e : Expression) (s : State) :
    perform (.deliver name e) s = (evaluate e s).map fun (v, s₁) =>
      match s₁.promised? name with
      | none => (.noPromise, s₁.without name)
      | some id =>
        match s₁.world.futures.deliver id v with
        | .ok fs => (.delivered, (s₁.without name).withFutures fs)
        | .error v => (.undelivered v, s₁.without name) := by
  show (evaluate e >>= _ : Run Answer) s = _
  cases hv : evaluate e s with
  | none =>
    show Option.bind (evaluate e s) _ = _
    rw [hv]
    rfl
  | some r =>
    obtain ⟨v, s₁⟩ := r
    show Option.bind (evaluate e s) _ = _
    rw [hv]
    show (takePromise name >>= _ : Run Answer) s₁ = some _
    show (match s₁.promised? name with
      | none => pure .noPromise
      | some id => get >>= fun s => match s.world.futures.deliver id v with
        | .ok futures => setFutures futures >>= fun _ => pure .delivered
        | .error v => pure (.undelivered v) : Run Answer) (s₁.without name) = _
    simp only
    cases s₁.promised? name with
    | none => rfl
    | some id =>
      show (match s₁.world.futures.deliver id v with
        | .ok futures => setFutures futures >>= fun _ => pure .delivered
        | .error v => pure (.undelivered v) : Run Answer) (s₁.without name) = some _
      simp only
      cases s₁.world.futures.deliver id v with
      | ok fs => rfl
      | error w => rfl

theorem evolves_deliver {e : Expression} (hs : s.Sound)
    (h : perform (.deliver name e) s = some (answer, s')) :
    Evolves s (happenings s (.deliver name e) answer s') s' := by
  rw [deliver_run] at h
  obtain ⟨⟨v, s₁⟩, hv, h⟩ := Option.map_eq_some_iff.1 h
  obtain ⟨hmade, hk, -, -⟩ := evolves_evaluate hs hv
  have hsame : s.promised? name = s₁.promised? name := (promised_evaluate hs hv name).symm
  simp only at h
  cases hp : s₁.promised? name with
  | none =>
    rw [hp] at h
    obtain ⟨rfl, rfl⟩ := Prod.mk.inj h
    rw [State.without_of_lookup_eq_none hp]
    refine hmade.congr fun id => ?_
    simp only [happenings, hv]
  | some promised =>
    simp only [hp] at h
    cases hd : s₁.world.futures.deliver promised v with
    | ok fs =>
      rw [hd] at h
      obtain ⟨rfl, rfl⟩ := Prod.mk.inj h
      refine (hmade.trans (hmade.sound.evolves_deliver hp hk hd)).congr fun id => ?_
      simp only [happenings, hv, hsame, hp]
    | error w =>
      rw [hd] at h
      obtain ⟨rfl, rfl⟩ := Prod.mk.inj h
      refine (hmade.trans (hmade.sound.evolves_refused hp hd).2).congr fun id => ?_
      simp only [happenings, hv, hsame, hp]

theorem evolves_abandon (hs : s.Sound) (h : perform (.abandon name) s = some (answer, s')) :
    Evolves s (happenings s (.abandon name) answer s') s' := by
  obtain ⟨b, s₁, hab, h⟩ := bind_eq_some.1 h
  rw [abandonPromise_run] at hab
  obtain ⟨-, rfl⟩ := Prod.mk.inj (Option.some.inj hab)
  obtain ⟨rfl, rfl⟩ := Prod.mk.inj (pure_eq_some.1 h)
  exact hs.evolves_letGo name

theorem evolves_await {result : Option String} (hs : s.Sound)
    (h : perform (.await name result) s = some (answer, s')) :
    Evolves s (happenings s (.await name result) answer s') s' := by
  obtain ⟨id, s₁, hfuture, h⟩ := bind_eq_some.1 h
  obtain ⟨hid, rfl⟩ := futureIn_eq_some hfuture
  obtain ⟨v, s₂, hread, h⟩ := bind_eq_some.1 h
  obtain ⟨_, s₃, hstore, h⟩ := bind_eq_some.1 h
  obtain ⟨rfl, rfl⟩ := Prod.mk.inj (pure_eq_some.1 h)
  obtain ⟨fs, hr, rfl⟩ := read_eq_some hread
  obtain ⟨hawaited, hk⟩ := evolves_awaited hs hr
  obtain ⟨hstored, -⟩ := evolves_store hawaited.sound hk hstore
  refine (hawaited.trans hstored).congr fun other => ?_
  simp only [happenings, hid, List.append_nil]

theorem tryRead_run (h : s.future? name = some id) :
    perform (.tryRead name) s = some (.tried (s.world.futures.tryRead id).1,
      s.withFutures (s.world.futures.tryRead id).2) := by
  show Option.bind (futureIn name s) _ = _
  rw [futureIn_of_future h]
  rfl

theorem evolves_tryRead (hs : s.Sound) (h : perform (.tryRead name) s = some (answer, s')) :
    Evolves s (happenings s (.tryRead name) answer s') s' := by
  obtain ⟨id, s₁, hfuture, -⟩ := bind_eq_some.1 h
  obtain ⟨hid, -⟩ := futureIn_eq_some hfuture
  rw [tryRead_run hid] at h
  have halive := hs.alive_of_future hid
  rw [Futures.tryRead_eq] at h
  cases hc : (s.world.futures.cell id).content? with
  | some v =>
    rw [hc] at h
    obtain ⟨rfl, rfl⟩ := Prod.mk.inj (Option.some.inj h)
    refine (hs.evolves_read (Stage.answer_of_content hc) fun _ => .tried hc).congr fun other => ?_
    simp only [happenings, hid]
  | none =>
    rw [hc] at h
    obtain ⟨rfl, rfl⟩ := Prod.mk.inj (Option.some.inj h)
    refine (hs.evolves_idle halive fun _ => .triedNone hc halive).congr fun other => ?_
    simp only [happenings, hid]

theorem isResolved_run (h : s.future? name = some id) :
    perform (.isResolved name) s = some (.flag (s.world.futures.isResolved id), s) := by
  show Option.bind (futureIn name s) _ = _
  rw [futureIn_of_future h]
  rfl

theorem evolves_isResolved (hs : s.Sound)
    (h : perform (.isResolved name) s = some (answer, s')) :
    Evolves s (happenings s (.isResolved name) answer s') s' := by
  obtain ⟨id, s₁, hfuture, -⟩ := bind_eq_some.1 h
  obtain ⟨hid, -⟩ := futureIn_eq_some hfuture
  rw [isResolved_run hid] at h
  obtain ⟨rfl, rfl⟩ := Prod.mk.inj (Option.some.inj h)
  have halive := hs.alive_of_future hid
  refine (hs.evolves_idle halive fun _ => .asked halive).congr fun other => ?_
  simp only [happenings, hid, Futures.isResolved_eq]

/-- The readers of an await by several, once their promise is settled. -/
def readers (id : FutureId) (n : Nat) : Run Answer := do
  return .values (← readTimes id n)

/-- Several readers in turn. -/
theorem evolves_readers {n : Nat} (hs : s.Sound) (h : readers id n s = some (answer, s')) :
    ∃ vs, answer = .values vs ∧
      Evolves s (fun other => vs.flatMap fun v => Happening.onlyAt (.awaited v) (some id) other)
        s' := by
  obtain ⟨vs, s₁, hread, h⟩ := bind_eq_some.1 h
  obtain ⟨rfl, rfl⟩ := Prod.mk.inj (pure_eq_some.1 h)
  exact ⟨vs, rfl, evolves_readTimes hs hread⟩

/-- An await by several without a value drops the promise of that name, and then reads. -/
theorem awaitConcurrently_none_run (h : s.future? name = some id) (n : Nat) :
    perform (.awaitConcurrently name n none) s = readers id n (s.letGo name) := by
  show Option.bind (futureIn name s) _ = _
  rw [futureIn_of_future h]
  show Option.bind (abandonPromise name s) _ = _
  rw [abandonPromise_run]
  rfl

/-- An await by several with a value delivers it by the promise of that name, and then reads. -/
theorem awaitConcurrently_some_run (h : s.future? name = some id) (n : Nat) (e : Expression) :
    perform (.awaitConcurrently name n (some e)) s =
      (evaluate e s).bind fun (v, s₁) => readers id n (s₁.handOver name v) := by
  show Option.bind (futureIn name s) _ = _
  rw [futureIn_of_future h]
  show Option.bind (evaluate e s) _ = _
  refine congrArg (Option.bind (evaluate e s)) (funext fun ⟨v, s₁⟩ => ?_)
  show (match s₁.promised? name with
    | some promised => get >>= fun s => match s.world.futures.deliver promised v with
      | .ok futures => setFutures futures >>= fun _ => readers id n
      | .error _ => readers id n
    | none => readers id n : Run Answer) (s₁.without name) = readers id n (s₁.handOver name v)
  unfold State.handOver
  cases hp : s₁.promised? name with
  | none =>
    rw [State.without_of_lookup_eq_none hp]
  | some promised =>
    show (match s₁.world.futures.deliver promised v with
      | .ok futures => setFutures futures >>= fun _ => readers id n
      | .error _ => readers id n : Run Answer) (s₁.without name) = _
    simp only
    cases s₁.world.futures.deliver promised v with
    | ok fs => rfl
    | error w => rfl

theorem evolves_awaitConcurrently {n : Nat} {value : Option Expression} (hs : s.Sound)
    (h : perform (.awaitConcurrently name n value) s = some (answer, s')) :
    Evolves s (happenings s (.awaitConcurrently name n value) answer s') s' := by
  obtain ⟨id, s₁, hfuture, -⟩ := bind_eq_some.1 h
  obtain ⟨hid, -⟩ := futureIn_eq_some hfuture
  cases value with
  | none =>
    rw [awaitConcurrently_none_run hid] at h
    have hgone := hs.evolves_letGo name
    obtain ⟨vs, rfl, hread⟩ := evolves_readers hgone.sound h
    refine (hgone.trans hread).congr fun other => ?_
    simp only [happenings, hid]
  | some e =>
    rw [awaitConcurrently_some_run hid] at h
    obtain ⟨⟨v, s₂⟩, hv, h⟩ := Option.bind_eq_some_iff.1 h
    obtain ⟨hmade, hk, -, -⟩ := evolves_evaluate hs hv
    have hhanded : Evolves s₂ (s₂.handedOver name v) (s₂.handOver name v) :=
      hmade.sound.evolves_handOver hk
    obtain ⟨vs, rfl, hread⟩ := evolves_readers hhanded.sound h
    refine ((hmade.trans hhanded).trans hread).congr fun other => ?_
    simp only [happenings, hid, hv]

theorem evolves_describeFuture (hs : s.Sound)
    (h : perform (.describeFuture name) s = some (answer, s')) :
    Evolves s (happenings s (.describeFuture name) answer s') s' := by
  obtain ⟨id, s₁, hfuture, h⟩ := bind_eq_some.1 h
  obtain ⟨hid, rfl⟩ := futureIn_eq_some hfuture
  obtain ⟨rfl, rfl⟩ := Prod.mk.inj (Option.some.inj h)
  exact hs.refl.congr fun other => (Futures.born_self _ _).symm

theorem evolves_describePromise (hs : s.Sound)
    (h : perform (.describePromise name) s = some (answer, s')) :
    Evolves s (happenings s (.describePromise name) answer s') s' := by
  obtain ⟨rfl, rfl⟩ := Prod.mk.inj (Option.some.inj h)
  exact hs.refl.congr fun other => (Futures.born_self _ _).symm

/-- Every action keeps the state sound and takes every future along its life. -/
theorem evolves_perform {action : Action} (hs : s.Sound)
    (h : perform action s = some (answer, s')) :
    Evolves s (happenings s action answer s') s' := by
  cases action with
  | assign name e => exact evolves_assign hs h
  | call b es result => exact evolves_call hs h
  | inspect e => exact evolves_inspect hs h
  | equals a b => exact evolves_equals hs h
  | drop name => exact evolves_drop hs h
  | deferred name => exact evolves_deferred hs h
  | ready name e => exact evolves_ready hs h
  | deliver name e => exact evolves_deliver hs h
  | abandon name => exact evolves_abandon hs h
  | await name result => exact evolves_await hs h
  | tryRead name => exact evolves_tryRead hs h
  | isResolved name => exact evolves_isResolved hs h
  | awaitConcurrently name n value => exact evolves_awaitConcurrently hs h
  | describePromise name => exact evolves_describePromise hs h
  | describeFuture name => exact evolves_describeFuture hs h

/-! ## Every run -/

variable {action : Action} {actions later : List Action}

theorem sound_step (hs : s.Sound) (h : step action s = some (answer, s')) : s'.Sound :=
  (evolves_perform hs.release h).sound

/-- One step takes every future along its life. -/
theorem steps_step (hs : s.Sound) (h : step action s = some (answer, s')) (id : FutureId) :
    Stage.Steps (s.stage id) (Moment.happenings ⟨s, action, answer, s'⟩ id) (s'.stage id) :=
  (s.steps_release id).trans ((evolves_perform hs.release h).steps id)

/-- A run keeps the state sound and takes every future along its life. -/
theorem steps_trace (hs : s.Sound) (actions : List Action) :
    (final actions s).Sound ∧ ∀ id,
      Stage.Steps (s.stage id) (history id (trace actions s)) ((final actions s).stage id) := by
  induction actions generalizing s with
  | nil => exact ⟨hs, fun id => .refl⟩
  | cons action rest ih =>
    unfold trace final
    cases h : step action s with
    | none => exact ⟨hs, fun id => .refl⟩
    | some r =>
      obtain ⟨answer, s'⟩ := r
      obtain ⟨hsound, hrest⟩ := ih (sound_step hs h)
      exact ⟨hsound, fun id => (steps_step hs h id).trans (hrest id)⟩

/-- What happened to a future since the script began is a life. -/
theorem life_of_trace (world : World) (actions : List Action) (id : FutureId) :
    Stage.Life (history id (trace actions (State.initial world)))
      ((final actions (State.initial world)).stage id) := by
  have hsteps := (steps_trace (State.sound_initial world) actions).2 id
  rwa [State.stage_initial] at hsteps

theorem step_of_mem_trace {m : Moment} (h : m ∈ trace actions s) :
    step m.action m.before = some (m.answer, m.after) := by
  induction actions generalizing s with
  | nil => cases h
  | cons action rest ih =>
    unfold trace at h
    cases hstep : step action s with
    | none =>
      rw [hstep] at h
      cases h
    | some r =>
      rw [hstep] at h
      rcases List.mem_cons.1 h with rfl | h
      · exact hstep
      · exact ih h

/-- A run in which no future is given a value that leads back to it makes no circle. -/
theorem untangled_trace (hs : s.Sound) (ht : s.world.futures.Untangled)
    (h : ∀ m ∈ trace actions s, ∀ id v, .delivered v ∈ m.happenings id →
      ¬ m.after.world.futures.Reachable [v] id) :
    (final actions s).world.futures.Untangled := by
  induction actions generalizing s with
  | nil => exact ht
  | cons action rest ih =>
    unfold trace at h
    unfold final
    cases hstep : step action s with
    | none => exact ht
    | some r =>
      obtain ⟨answer, s'⟩ := r
      rw [hstep] at h
      have hevolves := evolves_perform hs.release hstep
      have ht' : s'.world.futures.Untangled :=
        hevolves.untangled ht.release (h _ List.mem_cons_self)
      exact ih hevolves.sound ht' fun m hm => h m (List.mem_cons_of_mem _ hm)

end Script

end ScriptValues
