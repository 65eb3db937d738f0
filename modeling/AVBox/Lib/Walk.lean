import Mathlib.Data.List.Basic
import Mathlib.Data.List.Forall2
import Mathlib.Logic.Relation

/-!
# Recursive walks

A walk looks at the items of a list in order, and an item may open a list of its own, which is
walked before the rest.  The walk calls itself for an opened list, so it may run out of call frames.

* `walk` is the recursive program.
* `Done` is what a walk that ends has gone through.
* `Step` is the same walk on an explicit stack of opened lists.  A walk runs out of frames exactly
  when that stack outgrows them (`walk_eq_deep_iff`).
-/

namespace Walk

variable {σ ι ε : Type}

/-- What looking at an item leads to. -/
inductive Turn (σ ι : Type)
  | stay (state : σ)
  | enter (state : σ) (inner : List ι)

section Program

variable (deep : ε) (look : σ → ι → Except ε (Turn σ ι))

/-- The walk of a list of items, which may call itself as often as there are frames. -/
def walk : ℕ → σ → List ι → Except ε σ
  | 0, _, _ => .error deep
  | frames + 1, state, items =>
      items.foldlM (fun state item => do
        match ← look state item with
        | .stay state => return state
        | .enter state inner => walk frames state inner) state

lemma walk_nil (frames : ℕ) (state : σ) : walk deep look (frames + 1) state [] = .ok state := rfl

variable {look} in
lemma walk_cons_stay {frames : ℕ} {state state' : σ} {item : ι}
    (h : look state item = .ok (.stay state')) (rest : List ι) :
    walk deep look (frames + 1) state (item :: rest) =
      walk deep look (frames + 1) state' rest := by
  simp only [walk, List.foldlM_cons, h]
  rfl

variable {look} in
lemma walk_cons_enter {frames : ℕ} {state state' : σ} {item : ι} {inner : List ι}
    (h : look state item = .ok (.enter state' inner)) (rest : List ι) :
    walk deep look (frames + 1) state (item :: rest) =
      walk deep look frames state' inner >>= fun state =>
        walk deep look (frames + 1) state rest := by
  simp only [walk, List.foldlM_cons, h]
  rfl

variable {look} in
lemma walk_cons_error {frames : ℕ} {state : σ} {item : ι} {e : ε}
    (h : look state item = .error e) (rest : List ι) :
    walk deep look (frames + 1) state (item :: rest) = .error e := by
  simp only [walk, List.foldlM_cons, h]
  rfl

lemma walk_append (frames : ℕ) (state : σ) (items items' : List ι) :
    walk deep look (frames + 1) state (items ++ items') =
      walk deep look (frames + 1) state items >>= fun state =>
        walk deep look (frames + 1) state items' := List.foldlM_append

/-- A walk in which every list opens another one runs out of frames. -/
lemma walk_eq_deep_of_enters {Opens : ℕ → σ → ι → Prop}
    (hopens : ∀ {left state item}, Opens (left + 1) state item → ∃ state' inner,
      look state item = .ok (.enter state' [inner]) ∧ Opens left state' inner)
    {frames : ℕ} {state : σ} {item : ι} (h : Opens frames state item) :
    walk deep look frames state [item] = .error deep := by
  induction frames generalizing state item with
  | zero => rfl
  | succ frames ih =>
      obtain ⟨state', inner, hlook, hinner⟩ := hopens h
      rw [walk_cons_enter deep hlook, ih hinner]
      rfl

end Program

/-! ## Walks that end -/

/-- The walk of the items within the frames leads from one state to another. -/
inductive Done (look : σ → ι → Except ε (Turn σ ι)) : ℕ → σ → List ι → σ → Prop
  | nil {frames : ℕ} {state : σ} : Done look (frames + 1) state [] state
  | stay {frames : ℕ} {state state' final : σ} {item : ι} {rest : List ι} :
      look state item = .ok (.stay state') → Done look (frames + 1) state' rest final →
      Done look (frames + 1) state (item :: rest) final
  | enter {frames : ℕ} {state state' inside final : σ} {item : ι} {inner rest : List ι} :
      look state item = .ok (.enter state' inner) → Done look frames state' inner inside →
      Done look (frames + 1) inside rest final →
      Done look (frames + 1) state (item :: rest) final

variable {deep : ε} {look : σ → ι → Except ε (Turn σ ι)}

lemma walk_of_done {frames : ℕ} {state final : σ} {items : List ι}
    (h : Done look frames state items final) : walk deep look frames state items = .ok final := by
  induction h with
  | nil => rfl
  | stay hlook _ ih => rw [walk_cons_stay deep hlook, ih]
  | enter hlook _ _ hinner hrest =>
      rw [walk_cons_enter deep hlook, hinner]
      exact hrest

lemma done_of_walk {frames : ℕ} {state final : σ} {items : List ι}
    (h : walk deep look frames state items = .ok final) : Done look frames state items final := by
  induction frames generalizing state items final with
  | zero => cases h
  | succ frames ih =>
      induction items generalizing state with
      | nil =>
          obtain rfl := Except.ok.inj h
          exact .nil
      | cons item rest ihrest =>
          cases hlook : look state item with
          | error e =>
              rw [walk_cons_error deep hlook] at h
              cases h
          | ok turn =>
              cases turn with
              | stay state' =>
                  rw [walk_cons_stay deep hlook] at h
                  exact .stay hlook (ihrest h)
              | enter state' inner =>
                  rw [walk_cons_enter deep hlook] at h
                  cases hinner : walk deep look frames state' inner with
                  | error e =>
                      rw [hinner] at h
                      cases h
                  | ok inside =>
                      rw [hinner] at h
                      exact .enter hlook (ih hinner) (ihrest h)

/-- A walk succeeds exactly when it can be gone through. -/
theorem walk_eq_ok_iff {frames : ℕ} {state final : σ} {items : List ι} :
    walk deep look frames state items = .ok final ↔ Done look frames state items final :=
  ⟨done_of_walk, walk_of_done⟩

/-- What every look preserves, a walk preserves. -/
theorem Done.invariant {I : σ → Prop}
    (hstay : ∀ {s s' item}, I s → look s item = .ok (.stay s') → I s')
    (henter : ∀ {s s' item inner}, I s → look s item = .ok (.enter s' inner) → I s')
    {frames : ℕ} {state final : σ} {items : List ι} (h : Done look frames state items final)
    (hI : I state) : I final := by
  induction h with
  | nil => exact hI
  | stay hlook _ ih => exact ih (hstay hI hlook)
  | enter hlook _ _ hinner hrest => exact hrest (hinner (henter hI hlook))

/-- A look that succeeds wherever another one does, in the same way, leads through the same
walks. -/
lemma Done.mono {look' : σ → ι → Except ε (Turn σ ι)}
    (hlook : ∀ {s item turn}, look s item = .ok turn → look' s item = .ok turn) {frames : ℕ}
    {state final : σ} {items : List ι} (h : Done look frames state items final) :
    Done look' frames state items final := by
  induction h with
  | nil => exact .nil
  | stay h _ ih => exact .stay (hlook h) ih
  | enter h _ _ hinner hrest => exact .enter (hlook h) hinner hrest

/-! ## The walk on a stack -/

/-- The opened lists, innermost first, and the state. -/
structure Config (σ ι : Type) where
  stack : List (List ι)
  state : σ

/-- One step of the walk. -/
inductive Step (look : σ → ι → Except ε (Turn σ ι)) : Config σ ι → Config σ ι → Prop
  | stay {state state' : σ} {item : ι} {rest : List ι} {stack : List (List ι)} :
      look state item = .ok (.stay state') →
      Step look ⟨(item :: rest) :: stack, state⟩ ⟨rest :: stack, state'⟩
  | enter {state state' : σ} {item : ι} {inner rest : List ι} {stack : List (List ι)} :
      look state item = .ok (.enter state' inner) →
      Step look ⟨(item :: rest) :: stack, state⟩ ⟨inner :: rest :: stack, state'⟩
  | leave {state : σ} {stack : List (List ι)} : Step look ⟨[] :: stack, state⟩ ⟨stack, state⟩

lemma Step.deterministic {c c₁ c₂ : Config σ ι} (h₁ : Step look c c₁) (h₂ : Step look c c₂) :
    c₁ = c₂ := by
  cases h₁ with
  | stay h =>
      cases h₂ with
      | stay h' => cases h.symm.trans h'; rfl
      | enter h' => cases h.symm.trans h'
  | enter h =>
      cases h₂ with
      | stay h' => cases h.symm.trans h'
      | enter h' => cases h.symm.trans h'; rfl
  | leave =>
      cases h₂ with
      | leave => rfl

/-- The configurations a walk goes through. -/
def Reaches (look : σ → ι → Except ε (Turn σ ι)) : Config σ ι → Config σ ι → Prop :=
  Relation.ReflTransGen (Step look)

/-- A step that leaves at most so many lists open. -/
def StepWithin (look : σ → ι → Except ε (Turn σ ι)) (bound : ℕ) (c c' : Config σ ι) : Prop :=
  Step look c c' ∧ c'.stack.length ≤ bound

/-- The stack never holds more lists than that. -/
def OpenAtMost (look : σ → ι → Except ε (Turn σ ι)) (bound : ℕ) (state : σ) (items : List ι) :
    Prop :=
  ∀ c, Reaches look ⟨[items], state⟩ c → c.stack.length ≤ bound

/-- A run within the bound to a configuration without a step shows that the bound is kept. -/
lemma bound_of_path {bound : ℕ} {c last : Config σ ι} (hstart : c.stack.length ≤ bound)
    (hpath : Relation.ReflTransGen (StepWithin look bound) c last)
    (hlast : ∀ c', ¬Step look last c') {other : Config σ ι} (h : Reaches look c other) :
    other.stack.length ≤ bound := by
  induction hpath using Relation.ReflTransGen.head_induction_on with
  | refl =>
      rcases Relation.ReflTransGen.cases_head h with rfl | ⟨c', hstep, -⟩
      · exact hstart
      · exact absurd hstep (hlast c')
  | head hstep _ ih =>
      rcases Relation.ReflTransGen.cases_head h with rfl | ⟨c', hstep', hrest⟩
      · exact hstart
      · obtain rfl := hstep.1.deterministic hstep'
        exact ih hstep.2 hrest

lemma path_mono {bound bound' : ℕ} (hle : bound ≤ bound') {c c' : Config σ ι}
    (h : Relation.ReflTransGen (StepWithin look bound) c c') :
    Relation.ReflTransGen (StepWithin look bound') c c' :=
  h.lift id fun _ _ hstep => ⟨hstep.1, Nat.le_trans hstep.2 hle⟩

lemma reaches_of_path {bound : ℕ} {c c' : Config σ ι}
    (h : Relation.ReflTransGen (StepWithin look bound) c c') : Reaches look c c' :=
  h.lift id fun _ _ hstep => hstep.1

/-- A walk that ends goes through its items on the stack and leaves it as it was. -/
lemma path_of_done {frames : ℕ} {state final : σ} {items : List ι}
    (h : Done look frames state items final) (stack : List (List ι)) :
    Relation.ReflTransGen (StepWithin look (stack.length + frames)) ⟨items :: stack, state⟩
      ⟨stack, final⟩ := by
  induction h generalizing stack with
  | nil => exact .single ⟨.leave, Nat.le_add_right _ _⟩
  | stay hlook _ ih =>
      refine .head ⟨.stay hlook, ?_⟩ (ih stack)
      simp only [List.length_cons]
      omega
  | @enter frames state state' inside final item inner rest hlook hdone _ hinner hrest =>
      have hframes : 0 < frames := by
        cases hdone <;> omega
      refine .head ⟨.enter hlook, ?_⟩ (.trans ?_ (hrest stack))
      · simp only [List.length_cons]
        omega
      · refine path_mono ?_ (hinner (rest :: stack))
        simp only [List.length_cons]
        omega

/-- How a walk that fails goes: it comes to an item that fails, or it opens too many lists. -/
lemma path_of_error {frames : ℕ} {state : σ} {items : List ι} {e : ε}
    (h : walk deep look frames state items = .error e) (stack : List (List ι)) :
    (∃ state' item rest lists, look state' item = .error e ∧ lists.length + 1 ≤
        stack.length + frames ∧
        Relation.ReflTransGen (StepWithin look (stack.length + frames)) ⟨items :: stack, state⟩
          ⟨(item :: rest) :: lists, state'⟩) ∨
      e = deep ∧ ∃ c, Reaches look ⟨items :: stack, state⟩ c ∧
        stack.length + frames < c.stack.length := by
  induction frames generalizing state items stack with
  | zero =>
      refine .inr ⟨(Except.error.inj h).symm, _, .refl, ?_⟩
      simp only [List.length_cons]
      omega
  | succ frames ih =>
      induction items generalizing state with
      | nil => cases h
      | cons item rest ihrest =>
          cases hlook : look state item with
          | error e' =>
              rw [walk_cons_error deep hlook] at h
              obtain rfl := Except.error.inj h
              exact .inl ⟨state, item, rest, stack, hlook, by omega, .refl⟩
          | ok turn =>
              cases turn with
              | stay state' =>
                  rw [walk_cons_stay deep hlook] at h
                  have hstep : StepWithin look (stack.length + (frames + 1))
                      ⟨(item :: rest) :: stack, state⟩ ⟨rest :: stack, state'⟩ := by
                    refine ⟨.stay hlook, ?_⟩
                    simp only [List.length_cons]
                    omega
                  rcases ihrest h with ⟨s, i, r, l, hfail, hlen, hpath⟩ | ⟨hdeep, c, hreach, hlen⟩
                  · exact .inl ⟨s, i, r, l, hfail, hlen, .head hstep hpath⟩
                  · exact .inr ⟨hdeep, c, .head hstep.1 hreach, hlen⟩
              | enter state' inner =>
                  rw [walk_cons_enter deep hlook] at h
                  have hentered : Step look ⟨(item :: rest) :: stack, state⟩
                      ⟨inner :: rest :: stack, state'⟩ := .enter hlook
                  cases hinner : walk deep look frames state' inner with
                  | error e' =>
                      rw [hinner] at h
                      obtain rfl : e' = e := Except.error.inj h
                      rcases ih hinner (rest :: stack) with
                        ⟨s, i, r, l, hfail, hlen, hpath⟩ | ⟨hdeep, c, hreach, hlen⟩
                      · simp only [List.length_cons] at hlen hpath
                        by_cases hframes : frames = 0
                        · subst hframes
                          cases hinner
                          refine .inr ⟨rfl, _, .single hentered, ?_⟩
                          simp only [List.length_cons]
                          omega
                        refine .inl ⟨s, i, r, l, hfail, by omega,
                          .head ⟨hentered, ?_⟩ (path_mono ?_ hpath)⟩
                        · simp only [List.length_cons]
                          omega
                        · omega
                      · simp only [List.length_cons] at hlen
                        exact .inr ⟨hdeep, c, .head hentered hreach, by omega⟩
                  | ok inside =>
                      rw [hinner] at h
                      have hdone := done_of_walk hinner
                      have hpath := path_of_done hdone (rest :: stack)
                      have hframes : 0 < frames := by
                        cases hdone <;> omega
                      simp only [List.length_cons] at hpath
                      have hfirst : StepWithin look (stack.length + (frames + 1))
                          ⟨(item :: rest) :: stack, state⟩ ⟨inner :: rest :: stack, state'⟩ := by
                        refine ⟨hentered, ?_⟩
                        simp only [List.length_cons]
                        omega
                      have hthere : Relation.ReflTransGen
                          (StepWithin look (stack.length + (frames + 1)))
                          ⟨(item :: rest) :: stack, state⟩ ⟨rest :: stack, inside⟩ :=
                        .head hfirst (path_mono (by omega) hpath)
                      rcases ihrest h with
                        ⟨s, i, r, l, hfail, hlen, hpath'⟩ | ⟨hdeep, c, hreach, hlen⟩
                      · exact .inl ⟨s, i, r, l, hfail, hlen, hthere.trans hpath'⟩
                      · exact .inr ⟨hdeep, c, (reaches_of_path hthere).trans hreach, hlen⟩

/-- What holds of the first items and carries over to opened lists holds of every item on the
stack. -/
lemma Reaches.items {Good : ι → Prop}
    (hinner : ∀ {s item s' inner}, Good item → look s item = .ok (.enter s' inner) →
      ∀ i ∈ inner, Good i)
    {c c' : Config σ ι} (h : Reaches look c c') (hgood : ∀ l ∈ c.stack, ∀ i ∈ l, Good i) :
    ∀ l ∈ c'.stack, ∀ i ∈ l, Good i := by
  induction h with
  | refl => exact hgood
  | tail _ hstep ih =>
      cases hstep with
      | stay _ =>
          intro l hl i hi
          rcases List.mem_cons.1 hl with rfl | hl
          · exact ih _ List.mem_cons_self i (List.mem_cons_of_mem _ hi)
          · exact ih l (List.mem_cons_of_mem _ hl) i hi
      | enter hlook =>
          intro l hl i hi
          have hopened := ih _ List.mem_cons_self
          rcases List.mem_cons.1 hl with rfl | hl
          · exact hinner (hopened _ List.mem_cons_self) hlook i hi
          rcases List.mem_cons.1 hl with rfl | hl
          · exact hopened i (List.mem_cons_of_mem _ hi)
          · exact ih l (List.mem_cons_of_mem _ hl) i hi
      | leave => exact fun l hl => ih l (List.mem_cons_of_mem _ hl)

/-- A walk that fails has come to an item that fails, or has opened too many lists. -/
theorem error_cases {Good : ι → Prop}
    (hinner : ∀ {s item s' inner}, Good item → look s item = .ok (.enter s' inner) →
      ∀ i ∈ inner, Good i)
    {frames : ℕ} {state : σ} {items : List ι} {e : ε} (hitems : ∀ i ∈ items, Good i)
    (h : walk deep look frames state items = .error e) :
    (∃ state' item, Good item ∧ look state' item = .error e) ∨
      e = deep ∧ ¬OpenAtMost look frames state items := by
  rcases path_of_error h [] with ⟨s, item, rest, lists, hfail, -, hpath⟩ | ⟨hdeep, c, hreach, hlen⟩
  · refine .inl ⟨s, item, ?_, hfail⟩
    refine (reaches_of_path hpath).items hinner ?_ _ List.mem_cons_self item List.mem_cons_self
    intro l hl
    obtain rfl := List.mem_singleton.1 hl
    exact hitems
  · refine .inr ⟨hdeep, fun hopen => ?_⟩
    have := hopen c hreach
    simp only [List.length_nil] at hlen
    omega

/-- A walk runs out of frames exactly when it opens more lists than it has frames. -/
theorem walk_eq_deep_iff (hlook : ∀ state item, look state item ≠ .error deep) {frames : ℕ}
    {state : σ} {items : List ι} :
    walk deep look frames state items = .error deep ↔ ¬OpenAtMost look frames state items := by
  constructor
  · intro h hopen
    rcases path_of_error h [] with ⟨s, i, r, l, hfail, -, -⟩ | ⟨-, c, hreach, hlen⟩
    · exact hlook s i hfail
    · have := hopen c hreach
      simp only [List.length_nil] at hlen
      omega
  · intro hopen
    cases frames with
    | zero => rfl
    | succ frames =>
        cases h : walk deep look (frames + 1) state items with
        | ok final =>
            refine absurd (fun c hreach => ?_) hopen
            have hpath := path_of_done (done_of_walk h) []
            simp only [List.length_nil, Nat.zero_add] at hpath
            refine bound_of_path ?_ hpath (fun c' hstep => ?_) hreach
            · simp only [List.length_singleton]
              omega
            · cases hstep
        | error e =>
            rcases path_of_error h [] with ⟨s, i, r, l, hfail, hlen, hpath⟩ | ⟨rfl, -⟩
            · refine absurd (fun c hreach => ?_) hopen
              simp only [List.length_nil, Nat.zero_add] at hpath
              refine bound_of_path ?_ hpath (fun c' hstep => ?_) hreach
              · simp only [List.length_singleton]
                omega
              · cases hstep with
                | stay h' => cases hfail.symm.trans h'
                | enter h' => cases hfail.symm.trans h'
            · rfl

/-- A walk that ends has not come to an item at which it fails. -/
lemma look_ok_of_reaches {frames : ℕ} {state final s : σ} {items rest : List ι} {item : ι}
    {stack : List (List ι)} (hdone : Done look frames state items final)
    (h : Reaches look ⟨[items], state⟩ ⟨(item :: rest) :: stack, s⟩) :
    ∃ turn, look s item = .ok turn := by
  have hpath := reaches_of_path (path_of_done hdone [])
  have hunique : Relator.RightUnique (Step look) := fun _ _ _ h₁ h₂ => h₁.deterministic h₂
  rcases Relation.ReflTransGen.total_of_right_unique hunique h hpath with hend | hend
  · rcases Relation.ReflTransGen.cases_head hend with heq | ⟨next, hstep, -⟩
    · cases heq
    · cases hstep with
      | stay hlook => exact ⟨_, hlook⟩
      | enter hlook => exact ⟨_, hlook⟩
  · rcases Relation.ReflTransGen.cases_head hend with heq | ⟨next, hstep, -⟩
    · cases heq
    · cases hstep

lemma openAtMost_of_done {frames : ℕ} {state final : σ} {items : List ι}
    (hdone : Done look frames state items final) : OpenAtMost look frames state items := by
  intro c hreach
  have hpath := path_of_done hdone []
  simp only [List.length_nil, Nat.zero_add] at hpath
  refine bound_of_path ?_ hpath (fun c' hstep => by cases hstep) hreach
  have hframes : 0 < frames := by
    cases hdone <;> omega
  simp only [List.length_singleton]
  omega

/-! ## Walks that agree up to an item -/

/-- Two lists agree up to the first place where the item stands. -/
inductive AgreeTo (last : ι) : List ι → List ι → Prop
  | nil : AgreeTo last [] []
  | cons {item : ι} {rest rest' : List ι} : AgreeTo last rest rest' →
      AgreeTo last (item :: rest) (item :: rest')
  | cut {rest rest' : List ι} : AgreeTo last (last :: rest) (last :: rest')

namespace AgreeTo

variable {last : ι}

lemma refl (items : List ι) : AgreeTo last items items := by
  induction items with
  | nil => exact .nil
  | cons item items ih => exact .cons ih

lemma append {first first' rest rest' : List ι} (h : AgreeTo last first first')
    (hrest : AgreeTo last rest rest') : AgreeTo last (first ++ rest) (first' ++ rest') := by
  induction h with
  | nil => exact hrest
  | cons _ ih => exact .cons ih
  | cut => exact .cut

lemma flatMap {κ : Type} {list list' : κ → List ι} (indices : List κ)
    (h : ∀ index ∈ indices, AgreeTo last (list index) (list' index)) :
    AgreeTo last (indices.flatMap list) (indices.flatMap list') := by
  induction indices with
  | nil => exact .nil
  | cons index indices ih =>
      rw [List.flatMap_cons, List.flatMap_cons]
      exact (h index List.mem_cons_self).append
        (ih fun other hother => h other (List.mem_cons_of_mem _ hother))

/-- The first items are the same. -/
lemma head {item : ι} {rest items' : List ι} (h : AgreeTo last (item :: rest) items') :
    ∃ rest', items' = item :: rest' ∧ (item ≠ last → AgreeTo last rest rest') := by
  cases h with
  | cons hrest => exact ⟨_, rfl, fun _ => hrest⟩
  | cut => exact ⟨_, rfl, fun hne => absurd rfl hne⟩

lemma head' {item : ι} {items rest' : List ι} (h : AgreeTo last items (item :: rest')) :
    ∃ rest, items = item :: rest ∧ (item ≠ last → AgreeTo last rest rest') := by
  cases h with
  | cons hrest => exact ⟨_, rfl, fun _ => hrest⟩
  | cut => exact ⟨_, rfl, fun hne => absurd rfl hne⟩

end AgreeTo

/-- Two turns open lists that agree up to the item, or both open none. -/
inductive AgreeTurns {τ : Type} (last : ι) : Turn σ ι → Turn τ ι → Prop
  | stay {state : σ} {state' : τ} : AgreeTurns last (.stay state) (.stay state')
  | enter {state : σ} {state' : τ} {inner inner' : List ι} : AgreeTo last inner inner' →
      AgreeTurns last (.enter state inner) (.enter state' inner')

section Agree

variable {τ : Type} {look' : τ → ι → Except ε (Turn τ ι)} {last : ι}

/-- A walk that fails at the item, and opens the same lists before it, opens no more of them than
one that ends. -/
theorem openAtMost_of_agree {frames : ℕ} {state final : σ} {state' : τ} {items items' : List ι}
    (hdone : Done look frames state items final) (hitems : AgreeTo last items items')
    (hlast : ∀ s' turn', look' s' last ≠ .ok turn')
    (hagree : ∀ {s s' item turn turn'}, look s item = .ok turn → look' s' item = .ok turn' →
      AgreeTurns last turn turn') : OpenAtMost look' frames state' items' := by
  have hfollow : ∀ c', Reaches look' ⟨[items'], state'⟩ c' →
      ∃ c, Reaches look ⟨[items], state⟩ c ∧ List.Forall₂ (AgreeTo last) c.stack c'.stack := by
    intro c' hreach
    induction hreach with
    | refl => exact ⟨_, .refl, .cons hitems .nil⟩
    | tail _ hstep ih =>
        obtain ⟨⟨stack, s⟩, hreach, hstacks⟩ := ih
        cases hstep with
        | @stay s' s'' item rest' stack' hlook' =>
            cases hstacks with
            | cons hhead hrest =>
                obtain ⟨rest, rfl, hrest'⟩ := hhead.head'
                obtain ⟨turn, hlook⟩ := look_ok_of_reaches hdone hreach
                have hne : item ≠ last := fun heq => hlast _ _ (heq ▸ hlook')
                cases hagree hlook hlook' with
                | stay => exact ⟨_, hreach.tail (.stay hlook), .cons (hrest' hne) hrest⟩
        | @enter s' s'' item inner' rest' stack' hlook' =>
            cases hstacks with
            | cons hhead hrest =>
                obtain ⟨rest, rfl, hrest'⟩ := hhead.head'
                obtain ⟨turn, hlook⟩ := look_ok_of_reaches hdone hreach
                have hne : item ≠ last := fun heq => hlast _ _ (heq ▸ hlook')
                cases hagree hlook hlook' with
                | enter hinner =>
                    exact ⟨_, hreach.tail (.enter hlook),
                      .cons hinner (.cons (hrest' hne) hrest)⟩
        | leave =>
            cases hstacks with
            | cons hhead hrest =>
                cases hhead with
                | nil => exact ⟨_, hreach.tail .leave, hrest⟩
  intro c' hreach
  obtain ⟨c, hreach', hstacks⟩ := hfollow c' hreach
  rw [← hstacks.length_eq]
  exact openAtMost_of_done hdone c hreach'

end Agree

section Agree

variable {look' : σ → ι → Except ε (Turn σ ι)} {last : ι}

/-- Two turns that lead to the same state and open lists that agree up to the item. -/
inductive SameTurns (last : ι) : Turn σ ι → Turn σ ι → Prop
  | stay {state : σ} : SameTurns last (.stay state) (.stay state)
  | enter {state : σ} {inner inner' : List ι} : AgreeTo last inner inner' →
      SameTurns last (.enter state inner) (.enter state inner')

/-- A walk does not end if it does the same as another one up to an item at which it fails. -/
theorem not_done_of_agree {frames : ℕ} {state final s : σ} {items items' rest : List ι} {item : ι}
    {stack : List (List ι)} (hitems : AgreeTo last items items')
    (hlast : ∀ s turn', look' s last ≠ .ok turn')
    (hagree : ∀ {s item turn turn'}, look s item = .ok turn → look' s item = .ok turn' →
      SameTurns last turn turn')
    (hreach : Reaches look ⟨[items], state⟩ ⟨(item :: rest) :: stack, s⟩)
    (hfail : ∀ turn', look' s item ≠ .ok turn') : ¬Done look' frames state items' final := by
  intro hdone
  have hfollow : ∀ c, Reaches look ⟨[items], state⟩ c →
      ∃ c', Reaches look' ⟨[items'], state⟩ c' ∧ c'.state = c.state ∧
        List.Forall₂ (AgreeTo last) c.stack c'.stack := by
    intro c hreach
    induction hreach with
    | refl => exact ⟨_, .refl, rfl, .cons hitems .nil⟩
    | tail _ hstep ih =>
        obtain ⟨⟨stack', s'⟩, hreach', rfl, hstacks⟩ := ih
        cases hstep with
        | @stay _ _ item rest stack hlook =>
            cases hstacks with
            | cons hhead hrest =>
                obtain ⟨rest', rfl, hrest'⟩ := hhead.head
                obtain ⟨turn', hlook'⟩ := look_ok_of_reaches hdone hreach'
                have hne : item ≠ last := fun heq => hlast _ _ (heq ▸ hlook')
                cases hagree hlook hlook' with
                | stay =>
                    exact ⟨_, hreach'.tail (.stay hlook'), rfl, .cons (hrest' hne) hrest⟩
        | @enter _ _ item inner rest stack hlook =>
            cases hstacks with
            | cons hhead hrest =>
                obtain ⟨rest', rfl, hrest'⟩ := hhead.head
                obtain ⟨turn', hlook'⟩ := look_ok_of_reaches hdone hreach'
                have hne : item ≠ last := fun heq => hlast _ _ (heq ▸ hlook')
                cases hagree hlook hlook' with
                | enter hinner =>
                    exact ⟨_, hreach'.tail (.enter hlook'), rfl,
                      .cons hinner (.cons (hrest' hne) hrest)⟩
        | leave =>
            cases hstacks with
            | cons hhead hrest =>
                cases hhead with
                | nil => exact ⟨_, hreach'.tail .leave, rfl, hrest⟩
  obtain ⟨⟨stack', s'⟩, hreach', hstate, hstacks⟩ := hfollow _ hreach
  cases hstate
  cases hstacks with
  | cons hhead hrest =>
      obtain ⟨rest', rfl, -⟩ := hhead.head
      obtain ⟨turn', hlook'⟩ := look_ok_of_reaches hdone hreach'
      exact hfail _ hlook'

end Agree

end Walk
