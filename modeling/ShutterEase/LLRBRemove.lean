import ShutterEase.LLRBBalance

/-!
`remove` on its way down: before it goes to a side it sees to it that the side can lose an entry
without losing depth, by turning a red node over, by taking one from the other child, or by
flipping colors, which `fixUp` takes back on the way up.
-/
namespace LLRBNode
open SortedEntries
namespace Node
variable {κ ν : Type}

/-- One of the two topmost nodes on the left is red. -/
def Ready (t : Node κ ν) : Prop := t.isRed = true ∨ t.left.isRed = true

/-- No child is red. -/
def TwoNode (t : Node κ ν) : Prop := t.left.isRed = false ∧ t.right.isRed = false

/-- A black node whose right child is red, with its left child black. -/
inductive Turned : Nat → Node κ ν → Prop where
  | mk {key : κ} {value : ν} {m : Nat} {l r : Node κ ν} : Balanced .BLACK m l →
      Balanced .RED m r → Turned (m + 1) (valueNode key value .BLACK l r)

/-- Of the same depth, and not red where it was black. -/
def Shrinks (c : Color) (n : Nat) (t : Node κ ν) : Prop :=
  ∃ d, Balanced d n t ∧ (c = .BLACK → d = .BLACK)

/-- Only a black node of two black children, which no node above it is asked to remove from, may
    lose a level. -/
def Shrunk (two : Prop) (c : Color) (n : Nat) (t : Node κ ν) : Prop :=
  Shrinks c n t ∨ two ∧ c = .BLACK ∧ ∃ m, n = m + 1 ∧ Balanced .BLACK m (t.withColor .BLACK)

/-- What `leanLeft` makes of a node of this key: the two, where it flips colors, were both black. -/
inductive LeftReady (key : κ) (two : Prop) (c : Color) : Nat → Node κ ν → Prop where
  | kept {k : κ} {v : ν} {n : Nat} {l r : Node κ ν} : Balanced c n (valueNode k v c l r) →
      Ready l → (k = key ∨ ∃ e ∈ l.entries, e.1 = key) → LeftReady key two c n (valueNode k v c l r)
  | flipped {v : ν} {m : Nat} {l r : Node κ ν} : two → Balanced .RED m l → Balanced .RED m r →
      LeftReady key two c (m + 1 + c.depth) (valueNode key v c.flip l r)

inductive RightReady (key : κ) (two : Prop) (c : Color) : Nat → Node κ ν → Prop where
  | turned {k : κ} {v : ν} {m : Nat} {l r : Node κ ν} : c = .BLACK → Balanced .BLACK m l →
      Balanced .RED m r → (k = key ∨ ∃ e ∈ r.entries, e.1 = key) →
      RightReady key two c (m + 1) (valueNode k v c l r)
  | kept {v : ν} {m : Nat} {l r : Node κ ν} : Balanced .BLACK m l → Balanced .BLACK m r →
      Ready r → RightReady key two c (m + c.depth) (valueNode key v c l r)
  | flipped {v : ν} {m : Nat} {l r : Node κ ν} : two → Balanced .RED m l → Balanced .RED m r →
      RightReady key two c (m + 1 + c.depth) (valueNode key v c.flip l r)
  | borrowed {k : κ} {v w : ν} {m : Nat} {l a b : Node κ ν} : Balanced .BLACK m l →
      Turned m (valueNode key w .BLACK a b) →
      RightReady key two c (m + c.depth) (valueNode k v c l (valueNode key w .BLACK a b))

section Leaning
variable {c : Color} {n : Nat} {l r : Node κ ν} {key : κ} {value : ν}

theorem color_of_balanced {d : Color} (h : Balanced c n (valueNode key value d l r)) : d = c := by
  cases h <;> rfl

theorem black_children (h : Balanced c n (valueNode key value c l r)) (black : l.isRed = false) :
    ∃ m, n = m + c.depth ∧ Balanced .BLACK m l ∧ Balanced .BLACK m r := by
  cases h with
  | red hl hr => exact ⟨n, rfl, hl, hr⟩
  | @black _ _ m d _ _ hl hr =>
    cases d with
    | RED => simp [isRed_of_balanced hl] at black
    | BLACK => exact ⟨m, rfl, hl, hr⟩

theorem black_of_not_red {d : Color} {t : Node κ ν} (h : Balanced d n t) (black : t.isRed = false) :
    Balanced .BLACK n t := by
  cases d with
  | RED => simp [isRed_of_balanced h] at black
  | BLACK => exact h

theorem leanLeft_ready (h : Balanced c n (valueNode key value c l r))
    (there : l.isEmpty = false) :
    LeftReady key (TwoNode (valueNode key value c l r)) c n
      (leanLeft (valueNode key value c l r)) := by
  by_cases ready : Ready l
  · have same : leanLeft (valueNode key value c l r) = valueNode key value c l r := by
      rcases ready with red | red <;> simp [leanLeft, red]
    rw [same]
    exact .kept h ready (Or.inl rfl)
  · obtain ⟨one, two⟩ := not_or.mp ready
    simp only [Bool.not_eq_true] at one two
    have no_right := isRed_right_of_balanced h
    obtain ⟨m, rfl, hl, hr⟩ := black_children h one
    cases hl with
    | empty => simp [isEmpty] at there
    | @black lk lv m d ll lr hll hlr =>
      have hll := black_of_not_red hll two
      cases hr with
      | @black rk rv _ e rl rr hrl hrr =>
        cases e with
        | BLACK =>
          have moved : leanLeft (valueNode key value c (valueNode lk lv .BLACK ll lr)
              (valueNode rk rv .BLACK rl rr)) = valueNode key value c.flip
              (valueNode lk lv .RED ll lr) (valueNode rk rv .RED rl rr) := by
            simp [leanLeft, moveRedLeft, colorFlip, flip, isRed_of_balanced hll,
              isRed_of_balanced hrl]
          rw [moved]
          exact .flipped ⟨one, no_right⟩ (.red hll hlr) (.red hrl hrr)
        | RED =>
          cases hrl with
          | @red k v _ a b ha hb =>
            have moved : leanLeft (valueNode key value c (valueNode lk lv .BLACK ll lr)
                (valueNode rk rv .BLACK (valueNode k v .RED a b) rr)) =
                valueNode k v c (valueNode key value .BLACK (valueNode lk lv .RED ll lr) a)
                  (valueNode rk rv .BLACK b rr) := by
              simp [leanLeft, moveRedLeft, colorFlip, flip, isRed_of_balanced hll,
                withRight, rotateRight, rotateLeft]
            rw [moved]
            refine .kept (balanced_node c (.black (.red hll hlr) ha) (.black hb hrr)) ?_ ?_
            · exact Or.inr rfl
            · exact Or.inr ⟨(key, value), by simp [entries], rfl⟩

theorem leanRight_ready (h : Balanced c n (valueNode key value c l r))
    (there : r.isEmpty = false ∨ l.isRed = true) :
    RightReady key (TwoNode (valueNode key value c l r)) c n
      (leanRight (valueNode key value c l r)) := by
  have no_right : r.isRed = false := isRed_right_of_balanced h
  cases red : l.isRed with
  | true =>
    cases h with
    | red hl hr => simp [isRed_of_balanced hl] at red
    | black hl hr =>
      cases hl with
      | empty => simp [isRed] at red
      | black hll hlr => simp at red
      | @red lk lv m ll lr hll hlr =>
        have turned : leanRight (valueNode key value .BLACK (valueNode lk lv .RED ll lr) r) =
            valueNode lk lv .BLACK ll (valueNode key value .RED lr r) := by
          simp [leanRight, rotateRight]
        rw [turned]
        exact .turned rfl hll (.red hlr hr) (Or.inr ⟨(key, value), by simp [entries], rfl⟩)
  | false =>
    obtain ⟨m, rfl, hl, hr⟩ := black_children h red
    cases hr with
    | empty => simp [isEmpty, red] at there
    | @black rk rv m e rl rr hrl hrr =>
      cases e with
      | RED =>
        have same : leanRight (valueNode key value c l (valueNode rk rv .BLACK rl rr)) =
            valueNode key value c l (valueNode rk rv .BLACK rl rr) := by
          simp [leanRight, red, isRed_of_balanced hrl]
        rw [same]
        refine .kept hl (.black hrl hrr) (Or.inr ?_)
        exact isRed_of_balanced hrl
      | BLACK =>
        cases hl with
        | @black lk lv _ d ll lr hll hlr =>
          cases d with
          | BLACK =>
            have moved : leanRight (valueNode key value c (valueNode lk lv .BLACK ll lr)
                (valueNode rk rv .BLACK rl rr)) = valueNode key value c.flip
                (valueNode lk lv .RED ll lr) (valueNode rk rv .RED rl rr) := by
              simp [leanRight, moveRedRight, colorFlip, flip, isRed_of_balanced hll,
                isRed_of_balanced hrl]
            rw [moved]
            exact .flipped ⟨red, no_right⟩ (.red hll hlr) (.red hrl hrr)
          | RED =>
            cases hll with
            | @red k v _ a b ha hb =>
              have moved : leanRight (valueNode key value c
                  (valueNode lk lv .BLACK (valueNode k v .RED a b) lr)
                  (valueNode rk rv .BLACK rl rr)) =
                  valueNode lk lv c (valueNode k v .BLACK a b)
                    (valueNode key value .BLACK lr (valueNode rk rv .RED rl rr)) := by
                simp [leanRight, moveRedRight, colorFlip, flip,
                  isRed_of_balanced hrl, rotateRight]
              rw [moved]
              exact .borrowed (.black ha hb) (.mk hlr (.red hrl hrr))

end Leaning
/-! What `fixUp` makes of a node when one side has lost an entry. -/
section Holes
variable {two : Prop} {c d : Color} {m n : Nat} {l r t : Node κ ν} {key k : κ} {value v : ν}

theorem shrinks_of_balanced (h : Balanced c n t) : Shrinks c n t := ⟨c, h, id⟩

theorem balanced_of_shrinks (h : Shrinks .BLACK n t) : Balanced .BLACK n t := by
  obtain ⟨d, h, black⟩ := h
  exact black rfl ▸ h

theorem shrinks_of_shrunk (h : Shrunk two c n t) (ready : c = .BLACK → ¬ two) : Shrinks c n t :=
  h.resolve_right fun ⟨both, black, _⟩ => ready black both

theorem depth_node (c : Color) (hl : Balanced .BLACK m l) (hr : Balanced .BLACK m r) :
    Balanced c (m + c.depth) (fixUp (valueNode key value c l r)) := by
  have h : Balanced c (m + c.depth) (valueNode key value c l r) := balanced_node c hl hr
  rwa [fixUp_of_balanced h]

/-- Of the two flipped children one may have turned black. -/
theorem shrunk_flipped {d e : Color} (both : two) (hl : Balanced d m l) (hr : Balanced e m r)
    (one : d = .RED ∨ e = .RED) :
    Shrunk two c (m + 1 + c.depth) (fixUp (valueNode key value c.flip l r)) := by
  cases c with
  | RED =>
    obtain ⟨f, h⟩ := fixUp_black key value hl hr
    exact Or.inl ⟨f, h, nofun⟩
  | BLACK =>
    by_cases other : d = .BLACK ∨ e = .BLACK
    · have leaning := fixUp_red key value hl hr other
      exact Or.inr ⟨both, rfl, m + 1, rfl, balanced_of_leans leaning⟩
    · obtain ⟨rfl, rfl⟩ : d = .RED ∧ e = .RED := by
        cases d <;> cases e <;> simp_all
      rw [Color.flip_BLACK, fixUp_flips hl hr]
      exact Or.inl ⟨.BLACK, .black (balanced_flip hl) (balanced_flip hr), fun _ => rfl⟩

theorem left_hole (h : LeftReady key two c n (valueNode k v d l r)) :
    ∃ e m, Balanced e m l ∧ Ready l ∧
      (∀ l', Balanced e m l' → Balanced c n (fixUp (valueNode k v d l' r))) ∧
      ∀ l', Shrinks e m l' → Shrunk two c n (fixUp (valueNode k v d l' r)) := by
  cases h with
  | kept h ready =>
    cases h with
    | red hl hr =>
      refine ⟨.BLACK, n, hl, ready, fun l' hl' => depth_node .RED hl' hr, fun l' hl' => ?_⟩
      exact Or.inl (shrinks_of_balanced (depth_node .RED (balanced_of_shrinks hl') hr))
    | @black _ _ m e _ _ hl hr =>
      have fixed : ∀ {f : Color} (l' : Node κ ν), Balanced f m l' →
          Balanced .BLACK (m + 1) (fixUp (valueNode k v .BLACK l' r)) := by
        intro f l' hl'
        have h : Balanced .BLACK (m + 1) (valueNode k v .BLACK l' r) := .black hl' hr
        rwa [fixUp_of_balanced h]
      refine ⟨e, m, hl, ready, fixed, fun l' ⟨f, hl', _⟩ => ?_⟩
      exact Or.inl (shrinks_of_balanced (fixed l' hl'))
  | @flipped v m _ _ both hl hr =>
    refine ⟨.RED, m, hl, Or.inl (isRed_of_balanced hl), fun l' hl' => ?_, fun l' hl' => ?_⟩
    · rw [fixUp_flips hl' hr, Color.flip_flip]
      exact balanced_node c (balanced_flip hl') (balanced_flip hr)
    · obtain ⟨f, hl', -⟩ := hl'
      exact shrunk_flipped both hl' hr (Or.inr rfl)

theorem right_hole (h : RightReady key two c n (valueNode k v d l r)) :
    ∃ e m, (Balanced e m r ∧ Ready r ∨ e = .BLACK ∧ Turned m r ∧ ∃ w f a b,
        r = valueNode key w f a b) ∧
      ∀ r', Shrinks e m r' → ∀ k v, Shrunk two c n (fixUp (valueNode k v d l r')) := by
  cases h with
  | @turned _ _ m _ _ black hl hr =>
    subst black
    refine ⟨.RED, m, Or.inl ⟨hr, Or.inl (isRed_of_balanced hr)⟩, fun r' ⟨f, hr', _⟩ k v => ?_⟩
    exact Or.inl (shrinks_of_balanced (fixUp_right hl hr'))
  | @kept _ m _ _ hl hr ready =>
    refine ⟨.BLACK, m, Or.inl ⟨hr, ready⟩, fun r' hr' k v => ?_⟩
    exact Or.inl (shrinks_of_balanced (depth_node c hl (balanced_of_shrinks hr')))
  | @flipped _ m _ _ both hl hr =>
    refine ⟨.RED, m, Or.inl ⟨hr, Or.inl (isRed_of_balanced hr)⟩, fun r' ⟨f, hr', _⟩ k v => ?_⟩
    exact shrunk_flipped both hl hr' (Or.inl rfl)
  | @borrowed _ _ w m _ a b hl hr =>
    refine ⟨.BLACK, m, Or.inr ⟨rfl, hr, w, .BLACK, a, b, rfl⟩, fun r' hr' k v => ?_⟩
    exact Or.inl (shrinks_of_balanced (depth_node c hl (balanced_of_shrinks hr')))

end Holes
section Removal
variable {c d color : Color} {m n : Nat} {t l r : Node κ ν} {key k : κ} {value v : ν}

theorem leftReady_value {two : Prop} (h : LeftReady key two c n t) :
    ∃ k v d l r, t = valueNode k v d l r := by
  cases h <;> exact ⟨_, _, _, _, _, rfl⟩

theorem rightReady_value {two : Prop} (h : RightReady key two c n t) :
    ∃ k v d l r, t = valueNode k v d l r := by
  cases h <;> exact ⟨_, _, _, _, _, rfl⟩

theorem entries_ne_nil (there : t.isEmpty = false) : t.entries ≠ [] := by
  cases t with
  | emptyNode => simp [isEmpty] at there
  | valueNode key value color l r => simp [entries]

theorem ready_isEmpty (ready : Ready t) : t.isEmpty = false := by
  cases t with
  | emptyNode => simp [Ready, isRed, Node.left] at ready
  | valueNode key value color l r => rfl

theorem two_of_ready (h : Balanced c n t) (ready : Ready t) : c = .BLACK → ¬ TwoNode t := by
  rintro rfl ⟨left, -⟩
  rcases ready with red | red
  · simp [isRed_of_balanced h] at red
  · simp [left] at red

theorem alone_of_left (h : Balanced c n (valueNode key value c l r)) (gone : l.isEmpty = true) :
    l = emptyNode ∧ r = emptyNode ∧ n = c.depth := by
  obtain rfl : l = emptyNode := by
    cases l with
    | emptyNode => rfl
    | valueNode => simp at gone
  obtain ⟨m, rfl, hl, hr⟩ := black_children h rfl
  cases hl
  cases hr
  exact ⟨rfl, rfl, Nat.zero_add _⟩

theorem removeMin_ready (h : Balanced c n t) (ready : Ready t) :
    Shrinks c n t.removeMin ∧ t.removeMin.entries = t.entries.tail := by
  fun_induction removeMin t generalizing c n with
  | case1 t last =>
    cases t with
    | emptyNode => simp [Ready, isRed, Node.left] at ready
    | valueNode key value color l r =>
      obtain rfl := color_of_balanced h
      obtain ⟨rfl, rfl, rfl⟩ := alone_of_left h last
      have red : color = .RED := by simpa [Ready, isRed] using ready
      subst red
      exact ⟨⟨.BLACK, .empty, fun _ => rfl⟩, rfl⟩
  | case2 t more ih =>
    cases t with
    | emptyNode => simp [Ready, isRed, Node.left] at ready
    | valueNode key value color l r =>
      obtain rfl := color_of_balanced h
      have leaned := leanLeft_ready h (by simpa using more)
      have kept := entries_leanLeft (valueNode key value color l r)
      obtain ⟨k, v, d, l', r', shape⟩ := leftReady_value leaned
      rw [shape] at leaned kept ih ⊢
      simp only [left_valueNode] at ih ⊢
      obtain ⟨e, m, hl, ready', -, hole⟩ := left_hole leaned
      obtain ⟨shrinks, tail⟩ := ih hl ready'
      refine ⟨shrinks_of_shrunk (hole _ shrinks) (two_of_ready h ready), ?_⟩
      rw [entries_fixUp, ← kept]
      simp only [withLeft, entries, tail]
      rw [List.tail_append_of_ne_nil (entries_ne_nil (ready_isEmpty ready'))]

variable (cmp : κ → κ → Ordering) (aKey : κ)

theorem remove_emptyNode : (emptyNode : Node κ ν).remove cmp aKey = emptyNode := by
  rw [remove]
  rfl

/-! `remove` at a node, once it is known which node it leans to. -/
section Equations
variable {cmp} {aKey} {l' r' : Node κ ν}

theorem remove_left (lt : cmp aKey key = .lt) (there : l.isEmpty = false)
    (leaned : leanLeft (valueNode key value color l r) = valueNode k v d l' r') :
    (valueNode key value color l r).remove cmp aKey =
      fixUp (valueNode k v d (l'.remove cmp aKey) r') := by
  rw [remove]
  simp [compared, lt, there, leaned, withLeft]

theorem remove_last (ge : cmp aKey key ≠ .lt)
    (leaned : leanRight (valueNode key value color l r) = valueNode k v d l' emptyNode)
    (eq : cmp aKey k = .eq) : (valueNode key value color l r).remove cmp aKey = emptyNode := by
  rw [remove]
  simp [compared, ge, leaned, eq, isEmpty]

theorem remove_here (ge : cmp aKey key ≠ .lt)
    (leaned : leanRight (valueNode key value color l r) = valueNode k v d l' r')
    (eq : cmp aKey k = .eq) (there : r'.isEmpty = false) {sk : κ} {sv : ν} {sd : Color}
    {sl sr : Node κ ν} (least : r'.min = valueNode sk sv sd sl sr) :
    (valueNode key value color l r).remove cmp aKey =
      fixUp (valueNode sk sv d l' (r'.removeMin.remove cmp aKey)) := by
  rw [remove]
  simp [compared, ge, leaned, eq, there, least, withEntryOf, withRight]

theorem remove_right (ge : cmp aKey key ≠ .lt)
    (leaned : leanRight (valueNode key value color l r) = valueNode k v d l' r')
    (ne : cmp aKey k ≠ .eq) :
    (valueNode key value color l r).remove cmp aKey =
      fixUp (valueNode k v d l' (r'.remove cmp aKey)) := by
  rw [remove]
  simp [compared, ge, leaned, ne, withRight]

theorem remove_before_all (lt : cmp aKey key = .lt) (gone : l = emptyNode) :
    (valueNode key value color l r).remove cmp aKey = fixUp (valueNode key value color l r) := by
  subst gone
  rw [remove]
  simp [compared, lt, isEmpty, withLeft, remove_emptyNode]

end Equations

/-- A key smaller than all that are stored is looked for down the left side, and all that was
    flipped on the way is flipped back. -/
theorem remove_smaller (h : Balanced c n t) (smaller : ∀ e ∈ t.entries, cmp aKey e.1 = .lt) :
    Balanced c n (t.remove cmp aKey) ∧ (t.remove cmp aKey).entries = t.entries := by
  induction size : t.count using Nat.strongRecOn generalizing t c n with
  | ind s ih =>
    cases t with
    | emptyNode => exact ⟨by rwa [remove_emptyNode], by rw [remove_emptyNode]⟩
    | valueNode key value color l r =>
      obtain rfl := color_of_balanced h
      have first : cmp aKey key = .lt := smaller (key, value) (by simp [entries])
      cases gone : l.isEmpty with
      | true =>
        rw [remove_before_all first (alone_of_left h gone).1, fixUp_of_balanced h]
        exact ⟨h, rfl⟩
      | false =>
        have leaned := leanLeft_ready h gone
        have kept := entries_leanLeft (valueNode key value color l r)
        have less := count_left_lt kept rfl
        obtain ⟨k, v, d, l', r', shape⟩ := leftReady_value leaned
        rw [shape] at leaned kept less
        rw [← kept] at smaller ⊢
        rw [remove_left first gone shape]
        simp only [left_valueNode] at less
        obtain ⟨e, m, hl, -, whole, -⟩ := left_hole leaned
        obtain ⟨balanced, same⟩ := ih _ (size ▸ less) hl
          (fun e member => smaller e (by simp [entries, member])) rfl
        refine ⟨whole _ balanced, ?_⟩
        rw [entries_fixUp]
        simp only [entries, same]

variable {cmp} {aKey} [Std.TransCmp cmp] {es rs : List (κ × ν)} {e : κ × ν}

/-- The node has stepped aside for an earlier one, and its key lies on the right. -/
theorem compared_of_right (sorted : Sorted cmp (es ++ e :: rs)) (ge : cmp aKey key ≠ .lt)
    (there : ∃ f ∈ rs, f.1 = key) : cmp aKey e.1 = .gt := by
  obtain ⟨f, member, rfl⟩ := there
  exact gt_of_lt_of_ge ((sorted_split sorted).2.2.2 f member) ge

/-- The node has stepped aside for a later one, and its key lies on the left. -/
theorem compared_of_left (sorted : Sorted cmp (es ++ e :: rs)) (lt : cmp aKey key = .lt)
    (there : ∃ f ∈ es, f.1 = key) : cmp aKey e.1 = .lt := by
  obtain ⟨f, member, rfl⟩ := there
  exact Std.TransCmp.lt_trans lt ((sorted_split sorted).2.2.1 f member)

theorem leftReady_lt {two : Prop} (leaned : LeftReady key two c n (valueNode k v d l r))
    (sorted : Sorted cmp (valueNode k v d l r).entries) (lt : cmp aKey key = .lt) :
    cmp aKey k = .lt := by
  cases leaned with
  | kept _ _ up =>
    rcases up with rfl | there
    · exact lt
    · exact compared_of_left sorted lt there
  | flipped => exact lt

theorem rightReady_ge {two : Prop} (leaned : RightReady key two c n (valueNode k v d l r))
    (sorted : Sorted cmp (valueNode k v d l r).entries) (ge : cmp aKey key ≠ .lt) :
    cmp aKey k ≠ .lt := by
  cases leaned with
  | turned _ _ _ up =>
    rcases up with rfl | there
    · exact ge
    · simp [compared_of_right sorted ge there]
  | kept => exact ge
  | flipped => exact ge
  | @borrowed k v w m _ a b _ _ =>
    have gt : cmp aKey k = .gt :=
      compared_of_right sorted ge ⟨(key, w), by simp [entries], rfl⟩
    simp [gt]

omit [Std.TransCmp cmp] in
theorem exists_min (there : t.isEmpty = false) :
    ∃ k v d, ∃ l r : Node κ ν, t.min = valueNode k v d l r ∧
      t.entries = (k, v) :: t.entries.tail := by
  induction t with
  | emptyNode => simp [isEmpty] at there
  | valueNode key value color l r ihl ihr =>
    cases l with
    | emptyNode => exact ⟨key, value, color, emptyNode, r, rfl, rfl⟩
    | valueNode lkey lvalue lcolor ll lr =>
      obtain ⟨k, v, d, a, b, least, first⟩ := ihl rfl
      refine ⟨k, v, d, a, b, least, ?_⟩
      rw [entries, first, List.cons_append, List.tail_cons]

/-- Nothing is on either side, or the right side is made ready to lose an entry. -/
theorem leanRight_cases (h : Balanced c n (valueNode key value color l r) ∨
      c = .BLACK ∧ Turned n (valueNode key value color l r)) :
    color = c ∧ (l = emptyNode ∧ r = emptyNode ∧ n = c.depth ∨
      RightReady key (TwoNode (valueNode key value color l r)) c n
        (leanRight (valueNode key value color l r))) := by
  rcases h with h | ⟨rfl, h⟩
  · obtain rfl := color_of_balanced h
    refine ⟨rfl, ?_⟩
    by_cases there : r.isEmpty = false ∨ l.isRed = true
    · exact Or.inr (leanRight_ready h there)
    · obtain ⟨gone, black⟩ := not_or.mp there
      simp only [Bool.not_eq_true, Bool.not_eq_false] at gone black
      obtain ⟨m, rfl, hl, hr⟩ := black_children h black
      cases hr with
      | empty =>
        cases hl
        exact Or.inl ⟨rfl, rfl, Nat.zero_add _⟩
      | black => simp at gone
  · cases h with
    | mk hl hr =>
      have same : leanRight (valueNode key value .BLACK l r) = valueNode key value .BLACK l r := by
        simp [leanRight, isRed_of_balanced hl, isRed_of_balanced hr]
      rw [same]
      exact ⟨rfl, Or.inr (.turned rfl hl hr (Or.inl rfl))⟩

/-- What a removal does to a tree. A node whose right child is red is only asked for a key that
    is not smaller than its own. -/
def Removes (cmp : κ → κ → Ordering) (aKey : κ) (t : Node κ ν) : Prop :=
  ∀ c n, Sorted cmp t.entries →
    Balanced c n t ∨ (c = .BLACK ∧ Turned n t) ∧ t.compared cmp aKey ≠ .lt →
    Shrunk (TwoNode t) c n (t.remove cmp aKey) ∧
      (t.remove cmp aKey).entries = erase cmp aKey t.entries

theorem removes_smaller (lt : cmp aKey key = .lt)
    (below : ∀ u : Node κ ν, u.count < (valueNode key value color l r).count → Removes cmp aKey u) :
    Removes cmp aKey (valueNode key value color l r) := by
  intro c n sorted h
  replace h : Balanced c n (valueNode key value color l r) := h.resolve_right fun h => h.2 lt
  obtain rfl := color_of_balanced h
  cases gone : l.isEmpty with
  | true =>
    obtain ⟨rfl, rfl, rfl⟩ := alone_of_left h gone
    rw [remove_before_all lt rfl, fixUp_of_balanced h]
    exact ⟨Or.inl (shrinks_of_balanced h), by simp [entries, erase, lt]⟩
  | false =>
    have leaned := leanLeft_ready h gone
    have kept := entries_leanLeft (valueNode key value color l r)
    have less := count_left_lt kept rfl
    obtain ⟨k, v, d, l', r', shape⟩ := leftReady_value leaned
    rw [shape] at leaned kept less
    rw [← kept] at sorted ⊢
    simp only [left_valueNode] at less
    obtain ⟨e, m, hl, ready, -, hole⟩ := left_hole leaned
    obtain ⟨shrunk, erased⟩ := below l' less e m (sorted_split sorted).1 (Or.inl hl)
    rw [remove_left lt gone shape]
    refine ⟨hole _ (shrinks_of_shrunk shrunk (two_of_ready hl ready)), ?_⟩
    rw [entries_fixUp, entries, erased]
    exact (erase_less sorted (leftReady_lt leaned sorted lt)).symm

theorem two_of_turned (h : Turned n t) : ¬ TwoNode t := by
  rintro ⟨-, right⟩
  cases h with
  | mk hl hr => simp [isRed_of_balanced hr] at right

theorem removes_greater (ge : cmp aKey key ≠ .lt)
    (below : ∀ u : Node κ ν, u.count < (valueNode key value color l r).count → Removes cmp aKey u) :
    Removes cmp aKey (valueNode key value color l r) := by
  intro c n sorted h
  obtain ⟨rfl, alone | leaned⟩ := leanRight_cases (h.imp_right And.left)
  · obtain ⟨rfl, rfl, rfl⟩ := alone
    have same : leanRight (valueNode key value color emptyNode emptyNode) =
        valueNode key value color emptyNode emptyNode := rfl
    have single : Balanced color color.depth (valueNode key value color emptyNode emptyNode) := by
      rw [← Nat.zero_add color.depth]
      exact balanced_node color .empty .empty
    by_cases eq : cmp aKey key = .eq
    · rw [remove_last ge same eq]
      refine ⟨?_, by simp [entries, erase, eq]⟩
      cases color with
      | RED => exact Or.inl ⟨.BLACK, .empty, fun _ => rfl⟩
      | BLACK => exact Or.inr ⟨⟨rfl, rfl⟩, rfl, 0, rfl, .empty⟩
    · rw [remove_right ge same eq, remove_emptyNode, fixUp_of_balanced single]
      exact ⟨Or.inl (shrinks_of_balanced single), by simp [entries, erase, eq]⟩
  · have kept := entries_leanRight (valueNode key value color l r)
    have less := count_right_lt kept rfl
    obtain ⟨k, v, d, l', r', shape⟩ := rightReady_value leaned
    rw [shape] at leaned kept less
    rw [← kept] at sorted ⊢
    simp only [right_valueNode] at less
    obtain ⟨-, sorted_right, -, after⟩ := sorted_split sorted
    have ge' := rightReady_ge leaned sorted ge
    obtain ⟨e, m, side, hole⟩ := right_hole leaned
    by_cases eq : cmp aKey k = .eq
    · rcases side with ⟨hr, ready⟩ | ⟨-, -, w, f, a, b, rfl⟩
      · obtain ⟨⟨f, hf, black⟩, tail⟩ := removeMin_ready hr ready
        obtain ⟨sk, sv, sd, sl, sr, least, first⟩ := exists_min (ready_isEmpty ready)
        have smaller : ∀ e ∈ r'.removeMin.entries, cmp aKey e.1 = .lt := by
          intro e member
          rw [tail] at member
          exact right_less sorted (by simp [eq]) e (List.mem_of_mem_tail member)
        obtain ⟨again, same⟩ := remove_smaller cmp aKey hf smaller
        rw [remove_here ge shape eq (ready_isEmpty ready) least]
        refine ⟨hole _ ⟨f, again, black⟩ sk sv, ?_⟩
        rw [entries_fixUp, entries, same, tail, ← first]
        exact (erase_here sorted eq).symm
      · have gt := compared_of_right sorted ge ⟨(key, w), by simp [entries], rfl⟩
        simp [eq] at gt
    · have gt : cmp aKey k = .gt := by
        cases h : cmp aKey k <;> simp_all
      rw [remove_right ge shape eq]
      have removed : Shrinks e m (r'.remove cmp aKey) ∧
          (r'.remove cmp aKey).entries = erase cmp aKey r'.entries := by
        rcases side with ⟨hr, ready⟩ | ⟨rfl, turned, w, f, a, b, rfl⟩
        · obtain ⟨shrunk, erased⟩ := below r' less e m sorted_right (Or.inl hr)
          exact ⟨shrinks_of_shrunk shrunk (two_of_ready hr ready), erased⟩
        · obtain ⟨shrunk, erased⟩ :=
            below _ less .BLACK m sorted_right (Or.inr ⟨⟨rfl, turned⟩, ge⟩)
          exact ⟨shrinks_of_shrunk shrunk fun _ => two_of_turned turned, erased⟩
      refine ⟨hole _ removed.1 k v, ?_⟩
      rw [entries_fixUp, entries, removed.2]
      exact (erase_greater sorted gt).symm

theorem removes (cmp : κ → κ → Ordering) [Std.TransCmp cmp] (aKey : κ) (t : Node κ ν) :
    Removes cmp aKey t := by
  induction size : t.count using Nat.strongRecOn generalizing t with
  | ind s ih =>
    cases t with
    | emptyNode =>
      intro c n sorted h
      rw [remove_emptyNode]
      rcases h with h | ⟨⟨-, h⟩, -⟩
      · exact ⟨Or.inl (shrinks_of_balanced h), rfl⟩
      · cases h
    | valueNode key value color l r =>
      have below : ∀ u : Node κ ν, u.count < (valueNode key value color l r).count →
          Removes cmp aKey u := fun u less => ih _ (size ▸ less) u rfl
      by_cases lt : cmp aKey key = .lt
      · exact removes_smaller lt below
      · exact removes_greater lt below

theorem entries_remove {n : Nat} (h : Balanced .BLACK n t) (sorted : Sorted cmp t.entries) :
    (t.remove cmp aKey).entries = erase cmp aKey t.entries :=
  (removes cmp aKey t .BLACK n sorted (Or.inl h)).2

theorem balanced_remove {n : Nat} (h : Balanced .BLACK n t) (sorted : Sorted cmp t.entries) :
    ∃ m, Balanced .BLACK m ((t.remove cmp aKey).withColor .BLACK) := by
  rcases (removes cmp aKey t .BLACK n sorted (Or.inl h)).1 with ⟨d, h', -⟩ | ⟨-, -, m, -, h'⟩
  · exact exists_withColor h'
  · exact ⟨m, h'⟩

end Removal
end Node
end LLRBNode
