import Mathlib.Data.Finset.Card
import Mathlib.Logic.Relation

/-!
# Searching with the set of nodes already met

A search for a goal goes through what a node holds, and leaves out every node it met
before.  A node that is being searched cannot be what makes itself reach a goal, so the
answer is right although the nodes in between may be answered too early.
-/

namespace OpenSearch

variable {α : Type*} [DecidableEq α]

def anyOf (deeper : α → List α → Option (Bool × List α)) :
    List α → List α → Option (Bool × List α)
  | [], met => some (false, met)
  | node :: nodes, met =>
    match deeper node met with
    | none => none
    | some (true, met) => some (true, met)
    | some (false, met) => anyOf deeper nodes met

variable (holds : α → List α) (goal : α → Bool)

def search : ℕ → α → List α → Option (Bool × List α)
  | 0, _, _ => none
  | depth + 1, node, met =>
    if node ∈ met then some (false, met)
    else if goal node then some (true, node :: met)
    else anyOf (search depth) (holds node) (node :: met)

def Holds (outer inner : α) : Prop :=
  inner ∈ holds outer

/-! ## What a search finds -/

variable {holds goal}

/-- A positive answer has a goal. -/
def Finds (holds : α → List α) (goal : α → Bool) (node : α) : Prop :=
  ∃ found, Relation.ReflTransGen (Holds holds) node found ∧ goal found = true

variable {deeper : α → List α → Option (Bool × List α)} {after : List α}

omit [DecidableEq α] in
theorem anyOf_finds
    (finds : ∀ node met after, deeper node met = some (true, after) → Finds holds goal node)
    (nodes met : List α) (found : anyOf deeper nodes met = some (true, after)) :
    ∃ node ∈ nodes, Finds holds goal node := by
  induction nodes generalizing met with
  | nil => simp [anyOf] at found
  | cons node nodes ih =>
    rw [anyOf] at found
    cases answer : deeper node met with
    | none => simp [answer] at found
    | some result =>
      rcases result with ⟨isFound, middle⟩
      cases isFound with
      | true => exact ⟨node, List.mem_cons_self, finds node met middle answer⟩
      | false =>
        rw [answer] at found
        rcases ih middle found with ⟨later, laterIn, laterFinds⟩
        exact ⟨later, List.mem_cons_of_mem node laterIn, laterFinds⟩

theorem search_finds (depth : ℕ) (node : α) (met after : List α)
    (found : search holds goal depth node met = some (true, after)) : Finds holds goal node := by
  induction depth generalizing node met after with
  | zero => simp [search] at found
  | succ depth ih =>
    rw [search] at found
    by_cases known : node ∈ met
    · simp [known] at found
    · rw [if_neg known] at found
      by_cases isGoal : goal node = true
      · exact ⟨node, Relation.ReflTransGen.refl, isGoal⟩
      · rw [if_neg isGoal] at found
        rcases anyOf_finds ih (holds node) (node :: met) found with
          ⟨inner, innerIn, goalNode, way, isGoalNode⟩
        exact ⟨goalNode, way.head innerIn, isGoalNode⟩

/-! ## What a search leaves out -/

/-- The nodes met since are no goals, and what they hold was met. -/
structure Covers (holds : α → List α) (goal : α → Bool) (met after : List α) : Prop where
  keeps : ∀ node ∈ met, node ∈ after
  noGoal : ∀ node ∈ after, node ∉ met → goal node = false
  closed : ∀ node ∈ after, node ∉ met → ∀ inner ∈ holds node, inner ∈ after

omit [DecidableEq α] in
theorem Covers.refl (met : List α) : Covers holds goal met met where
  keeps _ member := member
  noGoal _ member new := absurd member new
  closed _ member new := absurd member new

theorem Covers.trans {met middle : List α} (early : Covers holds goal met middle)
    (late : Covers holds goal middle after) : Covers holds goal met after where
  keeps node member := late.keeps node (early.keeps node member)
  noGoal := by
    intro node member new
    by_cases before : node ∈ middle
    · exact early.noGoal node before new
    · exact late.noGoal node member before
  closed := by
    intro node member new inner innerIn
    by_cases before : node ∈ middle
    · exact late.keeps inner (early.closed node before new inner innerIn)
    · exact late.closed node member before inner innerIn

theorem anyOf_covers (covers : ∀ node met after, deeper node met = some (false, after) →
      Covers holds goal met after ∧ node ∈ after) (nodes met : List α)
    (missed : anyOf deeper nodes met = some (false, after)) :
    Covers holds goal met after ∧ ∀ node ∈ nodes, node ∈ after := by
  induction nodes generalizing met with
  | nil =>
    rw [anyOf, Option.some_inj, Prod.mk.injEq] at missed
    rw [← missed.2]
    exact ⟨Covers.refl met, by simp⟩
  | cons node nodes ih =>
    rw [anyOf] at missed
    cases answer : deeper node met with
    | none => simp [answer] at missed
    | some result =>
      rcases result with ⟨isFound, middle⟩
      cases isFound with
      | true => simp [answer] at missed
      | false =>
        rw [answer] at missed
        have ⟨early, inMiddle⟩ := covers node met middle answer
        have ⟨late, rest⟩ := ih middle missed
        refine ⟨early.trans late, ?_⟩
        intro other otherIn
        rcases List.mem_cons.mp otherIn with rfl | later
        · exact late.keeps other inMiddle
        · exact rest other later

theorem search_covers (depth : ℕ) (node : α) (met after : List α)
    (missed : search holds goal depth node met = some (false, after)) :
    Covers holds goal met after ∧ node ∈ after := by
  induction depth generalizing node met after with
  | zero => simp [search] at missed
  | succ depth ih =>
    rw [search] at missed
    by_cases known : node ∈ met
    · rw [if_pos known] at missed
      cases missed
      exact ⟨Covers.refl met, known⟩
    · rw [if_neg known] at missed
      by_cases isGoal : goal node = true
      · simp [isGoal] at missed
      · rw [if_neg isGoal] at missed
        have ⟨covers, held⟩ := anyOf_covers ih (holds node) (node :: met) missed
        refine ⟨⟨?_, ?_, ?_⟩, covers.keeps node List.mem_cons_self⟩
        · intro other member
          exact covers.keeps other (List.mem_cons_of_mem node member)
        · intro other member new
          by_cases same : other = node
          · rw [same]
            exact Bool.eq_false_iff.mpr isGoal
          · exact covers.noGoal other member (by simp [same, new])
        · intro other member new
          by_cases same : other = node
          · rw [same]
            exact held
          · exact covers.closed other member (by simp [same, new])

/-! ## The end of a search -/

theorem anyOf_ends {all : Finset α} {room : ℕ}
    (ends : ∀ node ∈ all, ∀ met, (all \ met.toFinset).card ≤ room →
      ∃ isFound after, deeper node met = some (isFound, after) ∧ ∀ other ∈ met, other ∈ after)
    (nodes met : List α) (inside : ∀ node ∈ nodes, node ∈ all)
    (small : (all \ met.toFinset).card ≤ room) :
    ∃ isFound after, anyOf deeper nodes met = some (isFound, after) ∧
      ∀ other ∈ met, other ∈ after := by
  induction nodes generalizing met with
  | nil => exact ⟨false, met, rfl, fun _ member => member⟩
  | cons node nodes ih =>
    rcases ends node (inside node List.mem_cons_self) met small with
      ⟨isFound, middle, answer, keeps⟩
    rw [anyOf, answer]
    cases isFound with
    | true => exact ⟨true, middle, rfl, keeps⟩
    | false =>
      have fewer : (all \ middle.toFinset).card ≤ room := by
        apply le_trans _ small
        apply Finset.card_le_card
        apply Finset.sdiff_subset_sdiff (Finset.Subset.refl all)
        intro other member
        exact List.mem_toFinset.mpr (keeps other (List.mem_toFinset.mp member))
      rcases ih middle (fun later laterIn => inside later (List.mem_cons_of_mem node laterIn))
        fewer with ⟨isFound, after, rest, keepsRest⟩
      exact ⟨isFound, after, rest, fun other member => keepsRest other (keeps other member)⟩

theorem search_ends {all : Finset α} (closed : ∀ node ∈ all, ∀ inner ∈ holds node, inner ∈ all)
    (room : ℕ) (node : α) (inside : node ∈ all) (met : List α)
    (small : (all \ met.toFinset).card ≤ room) :
    ∃ isFound after, search holds goal (room + 1) node met = some (isFound, after) ∧
      ∀ other ∈ met, other ∈ after := by
  induction room generalizing node met with
  | zero =>
    have known : node ∈ met := by
      by_contra new
      have inRest : node ∈ all \ met.toFinset := by simp [inside, new]
      have positive := Finset.card_pos.mpr ⟨node, inRest⟩
      omega
    rw [search, if_pos known]
    exact ⟨false, met, rfl, fun _ member => member⟩
  | succ room ih =>
    rw [search]
    by_cases known : node ∈ met
    · rw [if_pos known]
      exact ⟨false, met, rfl, fun _ member => member⟩
    · rw [if_neg known]
      by_cases isGoal : goal node = true
      · rw [if_pos isGoal]
        exact ⟨true, node :: met, rfl, fun other member => List.mem_cons_of_mem node member⟩
      · rw [if_neg isGoal]
        have fewer : (all \ (node :: met).toFinset).card ≤ room := by
          have inRest : node ∈ all \ met.toFinset := by simp [inside, known]
          rw [List.toFinset_cons, Finset.sdiff_insert, Finset.card_erase_of_mem inRest]
          omega
        rcases anyOf_ends (fun node inside met small => ih node inside met small) (holds node)
          (node :: met) (closed node inside) fewer with ⟨isFound, after, answer, keeps⟩
        exact ⟨isFound, after, answer,
          fun other member => keeps other (List.mem_cons_of_mem node member)⟩

/-- The answer of a search that starts with nothing met: whether a goal can be reached. -/
theorem search_answers {all : Finset α}
    (closed : ∀ node ∈ all, ∀ inner ∈ holds node, inner ∈ all) {node : α} (inside : node ∈ all)
    {depth : ℕ} (deep : all.card < depth) :
    ∃ isFound after, search holds goal depth node [] = some (isFound, after) ∧
      (isFound = true ↔ Finds holds goal node) := by
  have room : depth - 1 + 1 = depth := by omega
  rcases @search_ends _ _ holds goal all closed (depth - 1) node inside [] (by simp; omega) with
    ⟨isFound, after, answer, _⟩
  rw [room] at answer
  refine ⟨isFound, after, answer, ?_⟩
  cases isFound with
  | true => exact iff_of_true rfl (search_finds depth node [] after answer)
  | false =>
    have ⟨covers, met⟩ := search_covers depth node [] after answer
    apply iff_of_false (by simp)
    rintro ⟨found, way, isGoal⟩
    have foundMet : found ∈ after := by
      clear isGoal
      induction way with
      | refl => exact met
      | tail _ step ih => exact covers.closed _ ih List.not_mem_nil _ step
    rw [covers.noGoal found foundMet List.not_mem_nil] at isGoal
    cases isGoal

end OpenSearch
