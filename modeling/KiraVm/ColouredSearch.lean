import Mathlib.Data.List.Chain
import Mathlib.Data.List.Count
import Mathlib.Data.List.Nodup
import Mathlib.Logic.Relation
import Mathlib.Order.WellFounded

/-!
# Cycles by depth-first colouring

A node is unvisited, being visited or visited.  An edge to a node that is being visited
closes a cycle, which is reported: the path from that node on, and the node again.
-/

namespace ColouredSearch

inductive VisitState
  | unvisited
  | visiting
  | visited
  deriving DecidableEq, Repr

/-- The colours, the path to the node being visited, and what was reported. -/
structure Search (δ : Type*) where
  states : List VisitState
  stack : List ℕ
  reports : List δ

variable {δ ε : Type*} (adjacency : List (List ℕ))

def edgesOf (node : ℕ) : List ℕ :=
  adjacency[node]?.getD []

section Visiting

variable (report : List ℕ → ℕ → δ)

/-- Go along the edges of the node on top of the path. -/
def follow (deeper : ℕ → Search δ → Option (Search δ)) :
    List ℕ → Search δ → Option (Search δ)
  | [], search => some search
  | target :: edges, search =>
    match search.states[target]? with
    | some .unvisited => (deeper target search).bind (follow deeper edges)
    | some .visiting =>
      match search.stack.idxOf? target with
      | some start =>
        follow deeper edges
          { search with
            reports := search.reports ++ [report (search.stack.drop start) target] }
      | none => follow deeper edges search
    | some .visited | none => follow deeper edges search

def visit : ℕ → ℕ → Search δ → Option (Search δ)
  | 0, _, _ => none
  | depth + 1, node, search =>
    if node < search.states.length then
      (follow report (visit depth) (edgesOf adjacency node)
        { search with
          states := search.states.set node .visiting
          stack := search.stack ++ [node] }).map fun search =>
            { search with
              stack := search.stack.dropLast
              states := search.states.set node .visited }
    else
      some search

def visitAll (depth : ℕ) : List ℕ → Search δ → Option (Search δ)
  | [], search => some search
  | node :: nodes, search =>
    if search.states[node]? = some .unvisited then
      (visit adjacency report depth node search).bind (visitAll depth nodes)
    else
      visitAll depth nodes search

def start (count : ℕ) (reports : List δ) : Search δ :=
  ⟨List.replicate count .unvisited, [], reports⟩

end Visiting

/-! ## Reports -/

def Search.map (change : List δ → List ε) (search : Search δ) : Search ε :=
  ⟨search.states, search.stack, change search.reports⟩

section Renaming

variable {report : List ℕ → ℕ → δ} {other : List ℕ → ℕ → ε} {change : List δ → List ε}

theorem follow_map
    (changes : ∀ reports path target,
      change (reports ++ [report path target]) = change reports ++ [other path target])
    {deeper : ℕ → Search δ → Option (Search δ)} {deeperOther : ℕ → Search ε → Option (Search ε)}
    (same : ∀ node search,
      deeperOther node (search.map change) = (deeper node search).map (Search.map change))
    (edges : List ℕ) (search : Search δ) :
    follow other deeperOther edges (search.map change) =
      (follow report deeper edges search).map (Search.map change) := by
  induction edges generalizing search with
  | nil => rfl
  | cons target edges ih =>
    have states : (search.map change).states = search.states := rfl
    have stack : (search.map change).stack = search.stack := rfl
    rw [follow, follow, states, stack]
    cases search.states[target]? with
    | none => exact ih search
    | some state =>
      cases state with
      | unvisited =>
        simp only []
        rw [same, Option.bind_map, Option.map_bind]
        congr 1
        funext next
        exact ih next
      | visiting =>
        cases search.stack.idxOf? target with
        | none => exact ih search
        | some start =>
          simp only []
          rw [← ih]
          simp only [Search.map, changes]
      | visited => exact ih search

theorem visit_map
    (changes : ∀ reports path target,
      change (reports ++ [report path target]) = change reports ++ [other path target])
    (depth node : ℕ) (search : Search δ) :
    visit adjacency other depth node (search.map change) =
      (visit adjacency report depth node search).map (Search.map change) := by
  induction depth generalizing node search with
  | zero => rfl
  | succ depth ih =>
    rw [visit, visit]
    by_cases inside : node < search.states.length
    · have entered := follow_map changes ih (edgesOf adjacency node)
        { search with
          states := search.states.set node .visiting
          stack := search.stack ++ [node] }
      have insideMap : node < (search.map change).states.length := inside
      rw [if_pos inside, if_pos insideMap]
      apply (congrArg (Option.map _) entered).trans
      rw [Option.map_map, Option.map_map]
      rfl
    · have outsideMap : ¬ node < (search.map change).states.length := inside
      rw [if_neg inside, if_neg outsideMap]
      rfl

theorem visitAll_map
    (changes : ∀ reports path target,
      change (reports ++ [report path target]) = change reports ++ [other path target])
    (depth : ℕ) (nodes : List ℕ) (search : Search δ) :
    visitAll adjacency other depth nodes (search.map change) =
      (visitAll adjacency report depth nodes search).map (Search.map change) := by
  induction nodes generalizing search with
  | nil => rfl
  | cons node nodes ih =>
    have states : (search.map change).states = search.states := rfl
    rw [visitAll, visitAll, states]
    by_cases fresh : search.states[node]? = some .unvisited
    · rw [if_pos fresh, if_pos fresh, visit_map adjacency changes, Option.bind_map,
        Option.map_bind]
      congr 1
      funext next
      exact ih next
    · rw [if_neg fresh, if_neg fresh]
      exact ih search

end Renaming

/-! ## What a search keeps -/

def Edge (source target : ℕ) : Prop :=
  target ∈ edgesOf adjacency source

/-- A path back to its first node, through different nodes. -/
def IsCycle (chain : List ℕ) : Prop :=
  ∃ first rest, chain = first :: rest ++ [first] ∧ (first :: rest).Nodup ∧
    List.IsChain (Edge adjacency) chain

/-- No infinite path starts at the node. -/
def Terminates (node : ℕ) : Prop :=
  Acc (fun target source => Edge adjacency source target) node

def chain (path : List ℕ) (target : ℕ) : List ℕ :=
  path ++ [target]

def closing {α : Type*} (chain : List α) : Option α × Option α :=
  (chain.dropLast.getLast?, chain.getLast?)

structure Consistent (search : Search (List ℕ)) : Prop where
  covers : adjacency.length ≤ search.states.length
  nodup : search.stack.Nodup
  visiting : ∀ node : ℕ, search.states[node]? = some .visiting ↔ node ∈ search.stack
  path : List.IsChain (Edge adjacency) search.stack
  cycles : ∀ chain ∈ search.reports, IsCycle adjacency chain
  settled : search.reports = [] → ∀ node : ℕ, search.states[node]? = some .visited →
    Terminates adjacency node

/-- How often an edge was found to close a chain. -/
def tally (search : Search (List ℕ)) (source target : ℕ) : ℕ :=
  (search.reports.map closing).count (some source, some target)

/-- The edges of a node count once, when the node is first visited. -/
def allowance (search next : Search (List ℕ)) (source target : ℕ) : ℕ :=
  if search.states[source]? = some .unvisited ∧ next.states[source]? ≠ some .unvisited then
    (edgesOf adjacency source).count target
  else
    0

/-- What a part of the search leaves as it was; `extra` counts the edges it went along
itself. -/
structure Grows (extra : ℕ → ℕ → ℕ) (search next : Search (List ℕ)) : Prop where
  stack : next.stack = search.stack
  length : next.states.length = search.states.length
  visited : ∀ node : ℕ, search.states[node]? = some .visited → next.states[node]? = some .visited
  visiting : ∀ node : ℕ, search.states[node]? = some .visiting → next.states[node]? = some .visiting
  unvisited : ∀ node : ℕ, next.states[node]? = some .unvisited →
    search.states[node]? = some .unvisited
  fewer : next.states.count .unvisited ≤ search.states.count .unvisited
  reports : next.reports = [] → search.reports = []
  tallied : ∀ source target, tally next source target ≤
    tally search source target + allowance adjacency search next source target +
      extra source target

variable {adjacency}

namespace Grows

theorem refl (search : Search (List ℕ)) : Grows adjacency (fun _ _ => 0) search search where
  stack := rfl
  length := rfl
  visited _ same := same
  visiting _ same := same
  unvisited _ same := same
  fewer := le_rfl
  reports same := same
  tallied source target := by omega

theorem trans {first second : ℕ → ℕ → ℕ} {search middle next : Search (List ℕ)}
    (early : Grows adjacency first search middle) (late : Grows adjacency second middle next) :
    Grows adjacency (fun source target => first source target + second source target)
      search next where
  stack := late.stack.trans early.stack
  length := late.length.trans early.length
  visited node was := late.visited node (early.visited node was)
  visiting node was := late.visiting node (early.visiting node was)
  unvisited node is_ := early.unvisited node (late.unvisited node is_)
  fewer := le_trans late.fewer early.fewer
  reports none_ := early.reports (late.reports none_)
  tallied source target := by
    have earlyTally := early.tallied source target
    have lateTally := late.tallied source target
    have once : allowance adjacency search middle source target +
        allowance adjacency middle next source target ≤
          allowance adjacency search next source target := by
      unfold allowance
      by_cases still : middle.states[source]? = some .unvisited
      · have was := early.unvisited source still
        simp [still, was]
      · have after : next.states[source]? ≠ some .unvisited := by
          intro unvisitedNext
          exact still (late.unvisited source unvisitedNext)
        simp [still, after]
    omega

theorem mono {extra more : ℕ → ℕ → ℕ} {search next : Search (List ℕ)}
    (grows : Grows adjacency extra search next)
    (le : ∀ source target, extra source target ≤ more source target) :
    Grows adjacency more search next :=
  { grows with
    tallied := by
      intro source target
      have tallied := grows.tallied source target
      have larger := le source target
      omega }

end Grows

def along (top : ℕ) (edges : List ℕ) (source target : ℕ) : ℕ :=
  if source = top then edges.count target else 0

theorem along_cons (top first : ℕ) (edges : List ℕ) (source target : ℕ) :
    along top (first :: edges) source target =
      (if source = top ∧ target = first then 1 else 0) + along top edges source target := by
  unfold along
  by_cases atTop : source = top
  · by_cases atFirst : target = first
    · simp [atTop, atFirst, Nat.add_comm]
    · simp [atTop, atFirst, Ne.symm atFirst]
  · simp [atTop]

/-! ## Going along the edges -/

variable {stack : List ℕ} {target top : ℕ} {search : Search (List ℕ)} {node : ℕ}

theorem drop_idxOf (onStack : target ∈ stack) :
    ∃ rest, stack.drop (stack.idxOf target) = target :: rest := by
  have inside : stack.idxOf target < stack.length := List.idxOf_lt_length_iff.mpr onStack
  use stack.drop (stack.idxOf target + 1)
  rw [List.drop_eq_getElem_cons inside, List.getElem_idxOf inside]

theorem isCycle_chain (nodup : stack.Nodup) (path : List.IsChain (Edge adjacency) stack)
    (topLast : stack.getLast? = some top) (edge : Edge adjacency top target)
    (onStack : target ∈ stack) :
    IsCycle adjacency (chain (stack.drop (stack.idxOf target)) target) := by
  rcases drop_idxOf onStack with ⟨rest, restEq⟩
  have last : (target :: rest).getLast? = some top := by
    rw [← restEq, List.getLast?_drop, if_neg, topLast]
    exact Nat.not_le.mpr (List.idxOf_lt_length_iff.mpr onStack)
  use target, rest
  refine ⟨by rw [chain, restEq], ?_, ?_⟩
  · rw [← restEq]
    exact nodup.sublist (List.drop_sublist _ _)
  · rw [chain, restEq]
    apply List.IsChain.append
    · rw [← restEq]
      exact path.drop _
    · exact List.isChain_singleton target
    · intro before beforeLast after afterHead
      rw [last] at beforeLast
      cases beforeLast
      cases afterHead
      exact edge

theorem closing_chain (topLast : stack.getLast? = some top) (onStack : target ∈ stack) :
    closing (chain (stack.drop (stack.idxOf target)) target) = (some top, some target) := by
  have last : (stack.drop (stack.idxOf target)).getLast? = some top := by
    rw [List.getLast?_drop, if_neg, topLast]
    exact Nat.not_le.mpr (List.idxOf_lt_length_iff.mpr onStack)
  rw [closing, chain, List.dropLast_concat, last, List.getLast?_concat]

def report (search : Search (List ℕ)) (target : ℕ) : Search (List ℕ) :=
  { search with
    reports := search.reports ++
      [chain (search.stack.drop (search.stack.idxOf target)) target] }

theorem Consistent.report (consistent : Consistent adjacency search)
    (topLast : search.stack.getLast? = some top) (edge : Edge adjacency top target)
    (onStack : target ∈ search.stack) :
    Consistent adjacency (report search target) where
  covers := consistent.covers
  nodup := consistent.nodup
  visiting := consistent.visiting
  path := consistent.path
  cycles := by
    intro found foundIn
    rcases List.mem_append.mp foundIn with earlier | new
    · exact consistent.cycles found earlier
    · rw [List.mem_singleton.mp new]
      exact isCycle_chain consistent.nodup consistent.path topLast edge onStack
  settled none_ := by simp [ColouredSearch.report] at none_

theorem grows_report (topLast : search.stack.getLast? = some top)
    (onStack : target ∈ search.stack) :
    Grows adjacency (along top [target]) search (report search target) where
  stack := rfl
  length := rfl
  visited _ same := same
  visiting _ same := same
  unvisited _ same := same
  fewer := le_rfl
  reports none_ := by simp [report] at none_
  tallied source goal := by
    have closed := closing_chain topLast onStack
    simp only [tally, report, List.map_append, List.count_append, List.map_cons, List.map_nil,
      closed, along]
    by_cases same : source = top
    · by_cases reached : target = goal
      · simp [same, reached]
      · simp [same, reached]
    · simp [same, Ne.symm same]

/-- What is known once an edge was gone along: its node is done. -/
def Done (next : Search (List ℕ)) (target : ℕ) : Prop :=
  next.reports = [] →
    next.states[target]? = some .visited ∨ next.states.length ≤ target

theorem Done.grows {extra : ℕ → ℕ → ℕ} {next : Search (List ℕ)} (done : Done search target)
    (grows : Grows adjacency extra search next) : Done next target := by
  intro none_
  rcases done (grows.reports none_) with visited | outside
  · left
    exact grows.visited target visited
  · right
    rw [grows.length]
    exact outside

def Visits (adjacency : List (List ℕ)) (deeper : ℕ → Search (List ℕ) → Option (Search (List ℕ)))
    (room : ℕ) : Prop :=
  ∀ node search, Consistent adjacency search → search.states[node]? = some .unvisited →
    (∀ top ∈ search.stack.getLast?, Edge adjacency top node) →
      (search.states.count .unvisited ≤ room → ∃ next, deeper node search = some next) ∧
      ∀ next, deeper node search = some next →
        Consistent adjacency next ∧ Grows adjacency (fun _ _ => 0) search next ∧
          next.states[node]? = some .visited

theorem follow_visits {deeper : ℕ → Search (List ℕ) → Option (Search (List ℕ))} {room : ℕ}
    (visits : Visits adjacency deeper room) (edges : List ℕ) (search : Search (List ℕ))
    (consistent : Consistent adjacency search) (topLast : search.stack.getLast? = some top)
    (areEdges : ∀ target ∈ edges, Edge adjacency top target) :
    (search.states.count .unvisited ≤ room → ∃ next, follow chain deeper edges search = some next) ∧
    ∀ next, follow chain deeper edges search = some next →
      Consistent adjacency next ∧ Grows adjacency (along top edges) search next ∧
        ∀ target ∈ edges, Done next target := by
  induction edges generalizing search with
  | nil =>
    constructor
    · intro _
      exact ⟨search, rfl⟩
    · intro next followed
      cases followed
      refine ⟨consistent, ?_, by simp⟩
      apply (Grows.refl search).mono
      simp
  | cons target edges ih =>
    have edge := areEdges target (by simp)
    have restEdges : ∀ later ∈ edges, Edge adjacency top later := by
      intro later laterIn
      exact areEdges later (List.mem_cons_of_mem target laterIn)
    -- Whatever the target's colour, it leads to a search from which the rest goes on.
    have goesOn : ∀ middle extra, Consistent adjacency middle →
        Grows adjacency extra search middle →
        (∀ source goal, extra source goal ≤ along top [target] source goal) →
        Done middle target → ∀ next, follow chain deeper edges middle = some next →
          Consistent adjacency next ∧ Grows adjacency (along top (target :: edges)) search next ∧
            ∀ later ∈ target :: edges, Done next later := by
      intro middle extra middleConsistent grows small done next followed
      have middleTop : middle.stack.getLast? = some top := by rw [grows.stack, topLast]
      have ⟨nextConsistent, nextGrows, nextDone⟩ :=
        (ih middle middleConsistent middleTop restEdges).2 next followed
      refine ⟨nextConsistent, ?_, ?_⟩
      · apply (grows.trans nextGrows).mono
        intro source goal
        have one := small source goal
        rw [along_cons] at one ⊢
        simp only [along, List.count_nil, ite_self] at one ⊢
        omega
      · intro later laterIn
        rcases List.mem_cons.mp laterIn with rfl | inRest
        · exact done.grows nextGrows
        · exact nextDone later inRest
    have total : ∀ middle extra, Consistent adjacency middle →
        Grows adjacency extra search middle →
        search.states.count .unvisited ≤ room →
          ∃ next, follow chain deeper edges middle = some next := by
      intro middle extra middleConsistent grows small
      have middleTop : middle.stack.getLast? = some top := by rw [grows.stack, topLast]
      exact (ih middle middleConsistent middleTop restEdges).1 (le_trans grows.fewer small)
    have nothing : ∀ source goal : ℕ, (fun _ _ => 0) source goal ≤ along top [target] source goal :=
      fun source goal => Nat.zero_le _
    cases state : search.states[target]? with
    | none =>
      have outside : Done search target :=
        fun _ => Or.inr (List.getElem?_eq_none_iff.mp state)
      simp only [follow, state]
      exact ⟨total search _ consistent (Grows.refl search),
        goesOn search _ consistent (Grows.refl search) nothing outside⟩
    | some colour =>
      cases colour with
      | unvisited =>
        have onTop : ∀ node ∈ search.stack.getLast?, Edge adjacency node target := by
          intro node nodeTop
          rw [topLast] at nodeTop
          cases nodeTop
          exact edge
        have ⟨finishes, visited⟩ := visits target search consistent state onTop
        simp only [follow, state]
        constructor
        · intro small
          rcases finishes small with ⟨middle, reached⟩
          have ⟨middleConsistent, grows, _⟩ := visited middle reached
          rw [reached]
          exact total middle _ middleConsistent grows small
        · intro next followed
          rcases Option.bind_eq_some_iff.mp followed with ⟨middle, reached, rest⟩
          have ⟨middleConsistent, grows, isVisited⟩ := visited middle reached
          exact goesOn middle _ middleConsistent grows nothing
            (fun _ => Or.inl isVisited) next rest
      | visiting =>
        have onStack := (consistent.visiting target).mp state
        have found : search.stack.idxOf? target = some (search.stack.idxOf target) := by
          cases found : search.stack.idxOf? target with
          | none => exact absurd onStack (List.idxOf?_eq_none_iff.mp found)
          | some start => rw [List.idxOf_eq_getD_idxOf?, found, Option.getD_some]
        have reported : follow chain deeper (target :: edges) search =
            follow chain deeper edges (report search target) := by
          simp only [follow, state, found]
          rfl
        rw [reported]
        have consistentAfter := consistent.report topLast edge onStack
        have grows : Grows adjacency (along top [target]) search (report search target) :=
          grows_report topLast onStack
        have done : Done (report search target) target := by
          intro none_
          simp [report] at none_
        exact ⟨total _ _ consistentAfter grows,
          goesOn _ _ consistentAfter grows (fun _ _ => le_rfl) done⟩
      | visited =>
        simp only [follow, state]
        exact ⟨total search _ consistent (Grows.refl search),
          goesOn search _ consistent (Grows.refl search) nothing
            (fun _ => Or.inl state)⟩

/-! ## Visits -/

def enter (node : ℕ) (search : Search (List ℕ)) : Search (List ℕ) :=
  { search with
    states := search.states.set node .visiting
    stack := search.stack ++ [node] }

def leave (node : ℕ) (search : Search (List ℕ)) : Search (List ℕ) :=
  { search with
    stack := search.stack.dropLast
    states := search.states.set node .visited }

theorem inside_of_state {state : VisitState} (stateAt : search.states[node]? = some state) :
    node < search.states.length :=
  (List.getElem?_eq_some_iff.mp stateAt).1

theorem enter_state (search : Search (List ℕ)) (inside : node < search.states.length) (other : ℕ) :
    (enter node search).states[other]? =
      if other = node then some .visiting else search.states[other]? := by
  change (search.states.set node .visiting)[other]? = _
  rw [List.getElem?_set]
  by_cases same : node = other
  · simp [same.symm, inside]
  · simp [same, Ne.symm same]

theorem leave_state (search : Search (List ℕ)) (inside : node < search.states.length) (other : ℕ) :
    (leave node search).states[other]? =
      if other = node then some .visited else search.states[other]? := by
  change (search.states.set node .visited)[other]? = _
  rw [List.getElem?_set]
  by_cases same : node = other
  · simp [same.symm, inside]
  · simp [same, Ne.symm same]

theorem Consistent.enter (consistent : Consistent adjacency search)
    (fresh : search.states[node]? = some .unvisited)
    (onTop : ∀ top ∈ search.stack.getLast?, Edge adjacency top node) :
    Consistent adjacency (enter node search) where
  covers := by simpa [ColouredSearch.enter] using consistent.covers
  nodup := by
    have notOn : node ∉ search.stack := by
      rw [← consistent.visiting, fresh]
      simp
    change (search.stack ++ [node]).Nodup
    rw [List.nodup_append]
    refine ⟨consistent.nodup, List.nodup_singleton node, ?_⟩
    intro other otherOn last lastIn same
    rw [same, List.mem_singleton.mp lastIn] at otherOn
    exact notOn otherOn
  visiting := by
    intro other
    rw [enter_state search (inside_of_state fresh)]
    change _ ↔ other ∈ search.stack ++ [node]
    rw [List.mem_append, List.mem_singleton, ← consistent.visiting]
    by_cases same : other = node
    · simp [same]
    · simp [same]
  path := by
    change List.IsChain (Edge adjacency) (search.stack ++ [node])
    apply consistent.path.append (List.isChain_singleton node)
    intro top topLast first firstIn
    cases firstIn
    exact onTop top topLast
  cycles := consistent.cycles
  settled := by
    intro none_ other visited
    rw [enter_state search (inside_of_state fresh)] at visited
    by_cases same : other = node
    · simp [same] at visited
    · rw [if_neg same] at visited
      exact consistent.settled none_ other visited

theorem terminates_of_done (consistent : Consistent adjacency search)
    (none_ : search.reports = []) (done : ∀ target ∈ edgesOf adjacency node, Done search target) :
    Terminates adjacency node := by
  constructor
  intro target edge
  rcases done target edge none_ with visited | outside
  · exact consistent.settled none_ target visited
  · constructor
    intro further furtherEdge
    have noEdges : edgesOf adjacency target = [] := by
      rw [edgesOf, List.getElem?_eq_none (le_trans consistent.covers outside)]
      rfl
    change further ∈ edgesOf adjacency target at furtherEdge
    rw [noEdges] at furtherEdge
    simp at furtherEdge

theorem Consistent.leave {after : Search (List ℕ)} (consistent : Consistent adjacency search)
    (afterConsistent : Consistent adjacency after) (stack : after.stack = search.stack ++ [node])
    (visiting : after.states[node]? = some .visiting)
    (done : ∀ target ∈ edgesOf adjacency node, Done after target) :
    Consistent adjacency (leave node after) where
  covers := by simpa [ColouredSearch.leave] using afterConsistent.covers
  nodup := by
    change after.stack.dropLast.Nodup
    rw [stack, List.dropLast_concat]
    exact consistent.nodup
  visiting := by
    intro other
    have notTwice := afterConsistent.nodup
    rw [stack, List.nodup_append] at notTwice
    rw [leave_state after (inside_of_state visiting)]
    change _ ↔ other ∈ after.stack.dropLast
    rw [stack, List.dropLast_concat]
    by_cases same : other = node
    · subst same
      rw [if_pos rfl]
      simp only [Option.some.injEq, reduceCtorEq, false_iff]
      intro onStack
      exact notTwice.2.2 other onStack other (by simp) rfl
    · rw [if_neg same, afterConsistent.visiting, stack, List.mem_append, List.mem_singleton]
      exact or_iff_left same
  path := by
    change List.IsChain (Edge adjacency) after.stack.dropLast
    rw [stack, List.dropLast_concat]
    exact consistent.path
  cycles := afterConsistent.cycles
  settled := by
    intro none_ other visited
    rw [leave_state after (inside_of_state visiting)] at visited
    by_cases same : other = node
    · rw [same]
      exact terminates_of_done afterConsistent none_ done
    · rw [if_neg same] at visited
      exact afterConsistent.settled none_ other visited

theorem count_set_le {states : List VisitState} {state : VisitState} (other : state ≠ .unvisited) :
    (states.set node state).count .unvisited ≤ states.count .unvisited := by
  by_cases inside : node < states.length
  · rw [List.count_set inside]
    simp [other]
  · rw [List.set_eq_of_length_le (Nat.not_lt.mp inside)]

theorem count_enter (fresh : search.states[node]? = some .unvisited) :
    (enter node search).states.count .unvisited < search.states.count .unvisited := by
  have ⟨inside, isFresh⟩ := List.getElem?_eq_some_iff.mp fresh
  have positive : 0 < search.states.count .unvisited :=
    List.count_pos_iff.mpr (List.mem_of_getElem? fresh)
  change (search.states.set node .visiting).count .unvisited < _
  have left : (VisitState.visiting == VisitState.unvisited) = false := rfl
  rw [List.count_set inside, isFresh, left, if_pos (beq_self_eq_true _), if_neg Bool.false_ne_true]
  omega

theorem grows_leave {after : Search (List ℕ)} (fresh : search.states[node]? = some .unvisited)
    (grows : Grows adjacency (along node (edgesOf adjacency node)) (enter node search) after) :
    Grows adjacency (fun _ _ => 0) search (leave node after) := by
  have inside := inside_of_state fresh
  have insideAfter : node < after.states.length := by
    rw [grows.length]
    simpa [enter] using inside
  have visitingAfter : after.states[node]? = some .visiting := by
    apply grows.visiting
    rw [enter_state search inside, if_pos rfl]
  have was : ∀ other state, other ≠ node → search.states[other]? = some state →
      (enter node search).states[other]? = some state := by
    intro other state different stateAt
    rw [enter_state search inside, if_neg different]
    exact stateAt
  constructor
  · change after.stack.dropLast = _
    rw [grows.stack]
    exact List.dropLast_concat
  · change (after.states.set node .visited).length = _
    rw [List.length_set, grows.length]
    exact List.length_set
  · intro other visited
    have different : other ≠ node := by
      intro same
      rw [same, fresh] at visited
      simp at visited
    rw [leave_state after insideAfter, if_neg different]
    exact grows.visited other (was other _ different visited)
  · intro other visiting
    have different : other ≠ node := by
      intro same
      rw [same, fresh] at visiting
      simp at visiting
    rw [leave_state after insideAfter, if_neg different]
    exact grows.visiting other (was other _ different visiting)
  · intro other unvisited
    rw [leave_state after insideAfter] at unvisited
    by_cases same : other = node
    · rw [same]
      exact fresh
    · rw [if_neg same] at unvisited
      have before := grows.unvisited other unvisited
      rwa [enter_state search inside, if_neg same] at before
  · have left : (leave node after).states.count .unvisited ≤ after.states.count .unvisited :=
      count_set_le (by simp)
    have entered := count_enter fresh
    exact le_trans left (le_trans grows.fewer entered.le)
  · exact grows.reports
  · intro source target
    have tallied := grows.tallied source target
    change tally after source target ≤ _
    have same : tally (enter node search) source target = tally search source target := rfl
    rw [same] at tallied
    by_cases atNode : source = node
    · have once : allowance adjacency search (leave node after) source target =
          (edgesOf adjacency source).count target := by
        rw [allowance, atNode, leave_state after insideAfter, if_pos rfl, if_pos (by simp [fresh])]
      have none_ : allowance adjacency (enter node search) after source target = 0 := by
        rw [allowance, atNode, enter_state search inside, if_pos rfl, if_neg (by simp)]
      rw [none_] at tallied
      simp only [along, atNode, if_true] at tallied once ⊢
      omega
    · have allowed : allowance adjacency (enter node search) after source target =
          allowance adjacency search (leave node after) source target := by
        rw [allowance, allowance, leave_state after insideAfter, enter_state search inside,
          if_neg atNode, if_neg atNode]
      rw [allowed] at tallied
      simp only [along, if_neg atNode] at tallied
      exact tallied

theorem visit_visits (depth : ℕ) : Visits adjacency (visit adjacency chain depth) depth := by
  induction depth with
  | zero =>
    intro node search consistent fresh _
    constructor
    · intro small
      have positive : 0 < search.states.count .unvisited :=
        List.count_pos_iff.mpr (List.mem_of_getElem? fresh)
      omega
    · intro next visited
      cases visited
  | succ depth ih =>
    intro node search consistent fresh onTop
    have inside := inside_of_state fresh
    have topLast : (enter node search).stack.getLast? = some node := List.getLast?_concat
    have entered := consistent.enter fresh onTop
    have ⟨finishes, followed⟩ := follow_visits ih (edgesOf adjacency node) _ entered topLast
      (fun target targetIn => targetIn)
    have visits : visit adjacency chain (depth + 1) node search =
        (follow chain (visit adjacency chain depth) (edgesOf adjacency node)
          (enter node search)).map (leave node) := by
      rw [visit, if_pos inside]
      rfl
    rw [visits]
    constructor
    · intro small
      have fewer := count_enter fresh
      rcases finishes (by omega) with ⟨after, reached⟩
      exact ⟨leave node after, by rw [reached]; rfl⟩
    · intro next visited
      rcases Option.map_eq_some_iff.mp visited with ⟨after, reached, rfl⟩
      have ⟨afterConsistent, grows, done⟩ := followed after reached
      have visiting : after.states[node]? = some .visiting := by
        apply grows.visiting
        rw [enter_state search inside, if_pos rfl]
      refine ⟨consistent.leave afterConsistent grows.stack visiting done,
        grows_leave fresh grows, ?_⟩
      rw [leave_state after (inside_of_state visiting), if_pos rfl]

theorem visitAll_visits (depth : ℕ) (nodes : List ℕ) (search : Search (List ℕ))
    (consistent : Consistent adjacency search) (empty : search.stack = [])
    (small : search.states.length ≤ depth) :
    ∃ next, visitAll adjacency chain depth nodes search = some next ∧
      Consistent adjacency next ∧ Grows adjacency (fun _ _ => 0) search next ∧
        ∀ node ∈ nodes, node < next.states.length → next.states[node]? = some .visited := by
  induction nodes generalizing search with
  | nil => exact ⟨search, rfl, consistent, Grows.refl search, by simp⟩
  | cons node nodes ih =>
    rw [visitAll]
    by_cases fresh : search.states[node]? = some .unvisited
    · rw [if_pos fresh]
      have ⟨finishes, visited⟩ := visit_visits depth node search consistent fresh (by simp [empty])
      rcases finishes (le_trans List.count_le_length small) with ⟨middle, reached⟩
      have ⟨middleConsistent, grows, isVisited⟩ := visited middle reached
      rcases ih middle middleConsistent (by rw [grows.stack, empty]) (by rw [grows.length]; exact small)
        with ⟨next, rest, nextConsistent, nextGrows, all⟩
      refine ⟨next, by rw [reached]; exact rest, nextConsistent, grows.trans nextGrows, ?_⟩
      intro other otherIn otherInside
      rcases List.mem_cons.mp otherIn with rfl | later
      · exact nextGrows.visited other isVisited
      · exact all other later otherInside
    · rw [if_neg fresh]
      rcases ih search consistent empty small with ⟨next, rest, nextConsistent, grows, all⟩
      refine ⟨next, rest, nextConsistent, grows, ?_⟩
      intro other otherIn otherInside
      rcases List.mem_cons.mp otherIn with rfl | later
      · have inside : other < search.states.length := by rwa [← grows.length]
        cases state : search.states[other] with
        | unvisited =>
          exact absurd ((List.getElem?_eq_getElem inside).trans (congrArg some state)) fresh
        | visiting =>
          have onStack := (consistent.visiting other).mp
            ((List.getElem?_eq_getElem inside).trans (congrArg some state))
          rw [empty] at onStack
          simp at onStack
        | visited =>
          exact grows.visited other
            ((List.getElem?_eq_getElem inside).trans (congrArg some state))
      · exact all other later otherInside

/-! ## The whole search -/

theorem consistent_start {count : ℕ} (covers : adjacency.length ≤ count) :
    Consistent adjacency (start count []) where
  covers := by simpa [start] using covers
  nodup := List.nodup_nil
  visiting node := by simp [start, List.getElem?_replicate]
  path := List.IsChain.nil
  cycles := by simp [start]
  settled := by
    intro _ node visited
    simp [start, List.getElem?_replicate] at visited

theorem not_accessible_of_loop {α : Type*} {relation : α → α → Prop} {node : α}
    (accessible : Acc relation node) : ¬ relation node node := by
  induction accessible with
  | intro node _ ih =>
    intro loop
    exact ih node loop loop

theorem not_terminates_of_cycle (cycle : Relation.TransGen (Edge adjacency) node node) :
    ¬ Terminates adjacency node := by
  intro terminates
  have swapped : Relation.TransGen (fun target source => Edge adjacency source target) node node :=
    Relation.transGen_swap.mp cycle
  exact not_accessible_of_loop terminates.transGen swapped

theorem reaches_of_isChain {source : ℕ} {path : List ℕ}
    (isChain : List.IsChain (Edge adjacency) (source :: path)) {goal : ℕ}
    (goalIn : goal ∈ source :: path) : Relation.ReflTransGen (Edge adjacency) source goal := by
  induction path generalizing source with
  | nil => rw [List.mem_singleton.mp goalIn]
  | cons next path ih =>
    rw [List.isChain_cons_cons] at isChain
    rcases List.mem_cons.mp goalIn with rfl | later
    · exact Relation.ReflTransGen.refl
    · exact (ih isChain.2 later).head isChain.1

theorem transGen_of_isCycle {found : List ℕ} (cycle : IsCycle adjacency found) :
    ∃ node, Relation.TransGen (Edge adjacency) node node := by
  rcases cycle with ⟨first, rest, rfl, _, path⟩
  use first
  rw [List.cons_append] at path
  cases closed : rest ++ [first] with
  | nil => simp at closed
  | cons second others =>
    rw [closed, List.isChain_cons_cons] at path
    have lastIn : first ∈ second :: others := by
      rw [← closed]
      simp
    exact Relation.TransGen.head' path.1 (reaches_of_isChain path.2 lastIn)

theorem tally_start (count source target : ℕ) : tally (start count []) source target = 0 :=
  rfl

theorem visitAll_reports {count depth : ℕ} (covers : adjacency.length ≤ count)
    (deep : count ≤ depth) :
    ∃ next, visitAll adjacency chain depth (List.range count) (start count []) = some next ∧
      (∀ found ∈ next.reports, IsCycle adjacency found) ∧
      (next.reports = [] ↔ ¬ ∃ node, Relation.TransGen (Edge adjacency) node node) ∧
      ∀ source target, (next.reports.map closing).count (some source, some target) ≤
        (edgesOf adjacency source).count target := by
  rcases visitAll_visits depth (List.range count) (start count []) (consistent_start covers) rfl
    (by simpa [start] using deep) with ⟨next, reached, consistent, grows, all⟩
  refine ⟨next, reached, consistent.cycles, ?_, ?_⟩
  · constructor
    · rintro none_ ⟨node, cycle⟩
      apply not_terminates_of_cycle cycle
      have ⟨first, edge, _⟩ := Relation.TransGen.head'_iff.mp cycle
      have inside : node < next.states.length := by
        have sourceInside : node < adjacency.length := by
          by_contra outside
          change first ∈ edgesOf adjacency node at edge
          rw [edgesOf, List.getElem?_eq_none (Nat.not_lt.mp outside)] at edge
          simp at edge
        exact lt_of_lt_of_le sourceInside consistent.covers
      apply consistent.settled none_
      apply all node _ inside
      rw [grows.length] at inside
      simpa [start] using inside
    · intro acyclic
      by_contra some_
      rcases List.exists_mem_of_ne_nil _ some_ with ⟨found, foundIn⟩
      exact acyclic (transGen_of_isCycle (consistent.cycles found foundIn))
  · intro source target
    have tallied := grows.tallied source target
    rw [tally_start] at tallied
    have allowed : allowance adjacency (start count []) next source target ≤
        (edgesOf adjacency source).count target := by
      unfold allowance
      split
      · exact le_rfl
      · exact Nat.zero_le _
    unfold tally at tallied
    omega

end ColouredSearch
