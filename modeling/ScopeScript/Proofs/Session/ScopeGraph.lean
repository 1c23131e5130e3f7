import ScopeScript.Proofs.Evaluation.Records

namespace ScopeScript

namespace Store

/-- A name is asked for in one scope after the other, along the links as they are, until a scope
binds it or there is no further one. -/
inductive Finds (store : Store) (name : String) : Nat → Except RuntimeError Value → Prop
  | bound {scope : Nat} {here : Scope} {value : Value} : store.scopes[scope]? = some here →
      here.bindings.lookup name = some value → Finds store name scope (.ok value)
  | outwards {scope outer : Nat} {here : Scope} {result : Except RuntimeError Value} :
    store.scopes[scope]? = some here → here.bindings.lookup name = none →
      here.enclosing = some outer → Finds store name outer result → Finds store name scope result
  | unbound {scope : Nat} {here : Scope} : store.scopes[scope]? = some here →
      here.bindings.lookup name = none → here.enclosing = none →
        Finds store name scope (.error (.unbound name))

/-- From every scope the links lead outwards, always to an older scope, and end in the global one.
So every search for a name comes to an end, and the only thing it fails for is that no scope on
its way binds the name. -/
structure Graph (store : Store) : Prop where
  root : store.scopes[0]?.map Scope.enclosing = some none
  chains : ∀ scope < store.scopes.size, ∃ path : List Nat,
    path.head? = some scope ∧ path.getLast? = some 0 ∧ path.Pairwise (· > ·) ∧
      path.IsChain fun inner outer =>
        store.scopes[inner]?.map Scope.enclosing = some (some outer)
  gets : ∀ scope < store.scopes.size, ∀ name result,
    store.Finds name scope result ↔ store.get scope name = result
  fails : ∀ scope < store.scopes.size, ∀ name error,
    store.get scope name = .error error → error = .unbound name

theorem get_of_bound {store : Store} {scope : Nat} {name : String} {here : Scope} {value : Value}
    (found : store.scopes[scope]? = some here) (bound : here.bindings.lookup name = some value) :
    store.get scope name = .ok value := by
  rw [get, lookup, found]
  simp only [bound]

theorem get_of_outer {store : Store} {scope outer : Nat} {name : String} {here : Scope}
    (found : store.scopes[scope]? = some here) (bound : here.bindings.lookup name = none)
    (link : here.enclosing = some outer) (older : outer < scope) :
    store.get scope name = store.get outer name := by
  rw [get, lookup, found]
  simp only [bound, link, older, if_true]
  rfl

theorem get_of_unbound {store : Store} {scope : Nat} {name : String} {here : Scope}
    (found : store.scopes[scope]? = some here) (bound : here.bindings.lookup name = none)
    (link : here.enclosing = none) : store.get scope name = .error (.unbound name) := by
  rw [get, lookup, found]
  simp only [bound, link]

namespace Sound

variable {made : List Closure} {store : Store}

/-- An enclosing scope is older than the scope itself. -/
theorem older (sound : store.Sound made) {scope outer : Nat} {here : Scope}
    (found : store.scopes[scope]? = some here) (link : here.enclosing = some outer) :
    outer < scope := by
  cases scope with
  | zero =>
    have root := sound.root
    rw [found, Option.map_some, link] at root
    cases root
  | succ i =>
    obtain ⟨other, older, enclosing⟩ :=
      sound.linked i (Array.getElem?_eq_some_iff.mp found).1
    rw [found, Option.map_some, link] at enclosing
    cases enclosing
    exact Nat.lt_succ_of_le older

theorem finds_get (sound : store.Sound made) (name : String) {scope : Nat}
    (opened : scope < store.scopes.size) :
    store.Finds name scope (store.get scope name) := by
  induction scope using Nat.strongRecOn with
  | ind scope outwards =>
    obtain ⟨here, found⟩ : ∃ here, store.scopes[scope]? = some here :=
      ⟨_, Array.getElem?_eq_getElem opened⟩
    cases bound : here.bindings.lookup name with
    | some value =>
      rw [get_of_bound found bound]
      exact .bound found bound
    | none =>
      cases link : here.enclosing with
      | none =>
        rw [get_of_unbound found bound link]
        exact .unbound found bound link
      | some outer =>
        have older := sound.older found link
        rw [get_of_outer found bound link older]
        exact .outwards found bound link (outwards outer older (Nat.lt_trans older opened))

theorem get_of_finds (sound : store.Sound made) {name : String} {scope : Nat}
    {result : Except RuntimeError Value} (finds : store.Finds name scope result) :
    store.get scope name = result := by
  induction finds with
  | bound found bound => exact get_of_bound found bound
  | outwards found bound link _ ih =>
    rw [get_of_outer found bound link (sound.older found link), ih]
  | unbound found bound link => exact get_of_unbound found bound link

theorem graph (sound : store.Sound made) : store.Graph where
  root := sound.root
  chains scope opened := ⟨store.chain scope, sound.chain_spec opened⟩
  gets scope opened name result := by
    refine ⟨sound.get_of_finds, ?_⟩
    rintro rfl
    exact sound.finds_get name opened
  fails scope _ name error failed := by
    unfold get at failed
    split at failed
    · cases failed
    · cases failed
      rfl

end Sound

end Store

/-- The machine as it is at first and at all that happens in a session. -/
def Machine.states (depth : Nat) (session : List Block) (machine : Machine) : List Machine :=
  machine :: (machine.events depth session).map Event.machine

theorem Machine.events_append (depth : Nat) (first more : List Block) (machine : Machine) :
    machine.events depth (first ++ more) =
      machine.events depth first ++ (machine.session depth first).events depth more := by
  induction first generalizing machine with
  | nil => rfl
  | cons program rest ih =>
    rw [List.cons_append, Machine.events, Machine.events, Machine.session]
    dsimp only
    rw [ih, List.append_assoc, List.cons_append]

/-- Wherever a statement is come to in a session, that is one of its states. -/
theorem Machine.mem_states_of_reaches {depth : Nat} {earlier : List Block} {program : Block}
    {target : Stmt} {machine there : Machine} (later : List Block)
    (reaches : Block.Reaches (invoke depth) target there program (machine.session depth earlier)) :
    there ∈ machine.states depth (earlier ++ program :: later) := by
  refine List.mem_cons_of_mem _ (List.mem_map.mpr ⟨.begins (.stmt target) there, ?_, rfl⟩)
  rw [Machine.events_append]
  exact List.mem_append_right _ (List.mem_append_left _ reaches.begins)

theorem Machine.start_sound : Machine.start.Sound [] where
  store :=
    { root := rfl
      linked := fun i opened => absurd opened (Nat.not_lt_of_ge (Nat.le_add_left 1 i))
      counted := rfl
      numbered := rfl
      captured := List.forall_mem_nil _
      bound := by
        intro closure binds
        obtain ⟨i, here, name, found, member⟩ := Store.binds_push binds
        cases found }
  current := Nat.one_pos

/-- Each state is sound for some closures. -/
theorem Machine.sound_of_mem_states {depth : Nat} {session : List Block} {machine : Machine}
    (member : machine ∈ Machine.start.states depth session) : ∃ made, machine.Sound made := by
  rcases List.mem_cons.mp member with rfl | inside
  · exact ⟨[], Machine.start_sound⟩
  · obtain ⟨event, happens, rfl⟩ := List.mem_map.mp inside
    have told := Machine.start_sound.events depth session
    obtain ⟨before, behind, split⟩ := List.append_of_mem happens
    rw [split] at told
    exact ⟨_, told.here.1⟩

/-- The outcome of a program is the last thing that happens in it. -/
theorem Machine.concludes_mem (depth : Nat) (program : Block) (more : List Block)
    (machine : Machine) :
    .concludes (machine.interpret depth program).1 (machine.interpret depth program).2 ∈
      machine.events depth (program :: more) :=
  List.mem_append_right _ List.mem_cons_self

theorem Machine.current_session (depth : Nat) (session : List Block) (machine : Machine) :
    (machine.session depth session).current = machine.current := by
  induction session generalizing machine with
  | nil => rfl
  | cons program more ih =>
    rw [Machine.session, ih]
    exact (Stmt.execAll_keepsAround (invoke_keeps depth) none program machine).current

/-- In every state of every session the scopes form a graph that ends in the global scope, and
the current scope is one of them. Links never change. A function that is bound anywhere, or that
something has just ended with, also with a return, captured one of the scopes. Between the
statements of the programs the current scope is the global one, whatever the outcomes. Wherever
a statement is come to, within a branch or an argument too, the machine is one of these states. -/
theorem scope_graph (depth : Nat) (session : List Block) :
    (∀ machine ∈ Machine.start.states depth session,
      machine.store.Graph ∧ machine.current < machine.store.scopes.size) ∧
    ((Machine.start.states depth session).Pairwise fun earlier later =>
      earlier.store.LinksKept later.store) ∧
    (∀ event ∈ Machine.start.events depth session, ∀ closure, event.Holds closure →
      closure.scope < event.machine.store.scopes.size) ∧
    (∀ (earlier : List Block) (before : Block),
      ((Stmt.execAll (invoke depth) none before).perform
        (Machine.start.session depth earlier)).2.current = 0) ∧
    ∀ earlier program later, session = earlier ++ program :: later → ∀ target there,
      Block.Reaches (invoke depth) target there program (Machine.start.session depth earlier) →
        there ∈ Machine.start.states depth session := by
  have told := Machine.start_sound.events depth session
  refine ⟨?_, told.pairwise, ?_, ?_, ?_⟩
  · intro machine member
    obtain ⟨made, sound⟩ := Machine.sound_of_mem_states member
    exact ⟨sound.store.graph, sound.current⟩
  · intro event happens closure holds
    obtain ⟨before, behind, split⟩ := List.append_of_mem happens
    rw [split] at told
    obtain ⟨sound, known⟩ := told.here
    refine sound.store.captured closure ?_
    rcases holds with binds | ends
    · exact sound.store.bound closure binds
    · exact known _ ends _ rfl
  · intro earlier before
    rw [(Stmt.execAll_keepsAround (invoke_keeps depth) none before _).current,
      Machine.current_session]
    rfl
  · rintro earlier program later rfl target there reaches
    exact Machine.mem_states_of_reaches later reaches

/-- The evaluation of a function that is returned by another one. -/
def makerProgram : Block :=
  [.expression (.call (.function [] [.returns (.function [] [])]) [])]

/-- A function that is returned captured the scope of a call that is over, and the next program
begins behind that call. -/
theorem scope_graph_of_returned_function :
    (∃ event ∈ Machine.start.events 1 [makerProgram, [.expression (.boolean true)]],
      event.Holds ⟨1, [], [], 1⟩ ∧ 1 < event.machine.store.scopes.size) ∧
    Machine.start.session 1 [makerProgram] ∈
      Machine.start.states 1 [makerProgram, [.expression (.boolean true)]] := by
  have happens := Machine.concludes_mem 1 makerProgram [[.expression (.boolean true)]] .start
  obtain ⟨-, -, captured, -, reached⟩ :=
    scope_graph 1 [makerProgram, [.expression (.boolean true)]]
  refine ⟨⟨_, happens, Or.inr rfl, captured _ happens ⟨1, [], [], 1⟩ (Or.inr rfl)⟩, ?_⟩
  exact reached [makerProgram] _ [] rfl _ _ (.first .here)

end ScopeScript
