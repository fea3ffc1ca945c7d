import Mathlib

namespace Agora

/-!
# Breadth-first order

The vertices that can be reached from a root in breadth-first order, the vertices that one vertex
leads to in their own order: the next vertex in line is the least new one after the earliest vertex
that leads to any.  There is one such order (`IsSearchOrder.unique`), and a queue from which visited
vertices are skipped goes through it (`Worklist`).
-/

section BreadthFirst

variable {α : Type} [LinearOrder α] (next : α → α → Prop)

/-- `v` comes after the vertices `before`. -/
def NextInLine (before : List α) (v : α) : Prop :=
  v ∉ before ∧ ∃ earlier u later, before = earlier ++ u :: later ∧ next u v
    ∧ (∀ x ∈ earlier, ∀ w, next x w → w ∈ before) ∧ ∀ w, next u w → w ∉ before → v ≤ w

/-- The first vertices of the order. -/
inductive BreadthFirst (root : α) : List α → Prop
  | root : BreadthFirst root [root]
  | next {before : List α} {v : α} :
      BreadthFirst root before → NextInLine next before v → BreadthFirst root (before ++ [v])

/-- All of them. -/
structure IsSearchOrder (root : α) (order : List α) : Prop where
  steps : BreadthFirst next root order
  closed : ∀ u ∈ order, ∀ w, next u w → w ∈ order

variable {next} {root : α} {order : List α}

theorem NextInLine.unique {before : List α} {v w : α} (hv : NextInLine next before v)
    (hw : NextInLine next before w) : v = w := by
  obtain ⟨hfresh, earlier, u, later, heq, hnext, hdone, hleast⟩ := hv
  obtain ⟨hfresh', earlier', u', later', heq', hnext', hdone', hleast'⟩ := hw
  rcases List.append_eq_append_iff.mp (heq.symm.trans heq') with ⟨as, hearlier, hlater⟩ | ⟨as, hearlier, hlater⟩
  · cases as with
    | nil =>
      obtain ⟨rfl, -⟩ := List.cons.inj hlater
      exact le_antisymm (hleast w hnext' hfresh') (hleast' v hnext hfresh)
    | cons a as =>
      -- The second vertex leads to a new one, and it is before the first that does.
      obtain ⟨rfl, -⟩ := List.cons.inj hlater
      exact absurd (hdone' u (by simp [hearlier]) v hnext) hfresh
  · cases as with
    | nil =>
      obtain ⟨rfl, -⟩ := List.cons.inj hlater
      exact le_antisymm (hleast w hnext' hfresh') (hleast' v hnext hfresh)
    | cons a as =>
      obtain ⟨rfl, -⟩ := List.cons.inj hlater
      exact absurd (hdone u' (by simp [hearlier]) w hnext') hfresh'

theorem BreadthFirst.nodup (h : BreadthFirst next root order) : order.Nodup := by
  induction h with
  | root => exact List.nodup_singleton _
  | next _ hline ih =>
    rw [List.nodup_append_comm]
    exact List.nodup_cons.mpr ⟨hline.1, ih⟩

theorem BreadthFirst.exists_cons (h : BreadthFirst next root order) : ∃ rest, order = root :: rest := by
  induction h with
  | root => exact ⟨[], rfl⟩
  | @next before v _ _ ih =>
    obtain ⟨rest, rfl⟩ := ih
    exact ⟨rest ++ [v], rfl⟩

/-- What the vertices hand on to those they lead to holds of all of them. -/
theorem BreadthFirst.forall_mem {P : α → Prop} (h : BreadthFirst next root order) (hroot : P root)
    (hstep : ∀ u ∈ order, ∀ w, next u w → P u → P w) : ∀ v ∈ order, P v := by
  induction h with
  | root => simpa using hroot
  | @next before v _ hline ih =>
    have hbefore := ih fun u hu w hw => hstep u (List.mem_append_left _ hu) w hw
    obtain ⟨-, earlier, u, later, rfl, hnext, -⟩ := hline
    refine List.forall_mem_append.mpr ⟨hbefore, List.forall_mem_singleton.mpr ?_⟩
    exact hstep u (by simp) v hnext (hbefore u (by simp))

/-- Every vertex but the root is next in line after those before it. -/
theorem BreadthFirst.nextInLine (h : BreadthFirst next root order) {before later : List α} {v : α}
    (heq : order = before ++ v :: later) (hne : before ≠ []) : NextInLine next before v := by
  induction h generalizing later with
  | root =>
    cases before with
    | nil => exact absurd rfl hne
    | cons a before =>
      obtain ⟨-, hrest⟩ := List.cons.inj heq
      exact absurd hrest.symm (List.append_ne_nil_of_right_ne_nil _ (List.cons_ne_nil _ _))
  | @next order w hbefore hline ih =>
    cases later using List.reverseRecOn with
    | nil =>
      obtain ⟨rfl, hlast⟩ := List.append_inj' heq rfl
      obtain rfl := List.singleton_inj.mp hlast
      exact hline
    | append_singleton later x =>
      rw [← List.cons_append, ← List.append_assoc] at heq
      exact ih (List.append_inj' heq rfl).1

/-- **Uniqueness.**  There is one breadth-first order. -/
theorem IsSearchOrder.unique {order' : List α} (h : IsSearchOrder next root order)
    (h' : IsSearchOrder next root order') : order = order' := by
  have hinitial {a b : List α} (ha : BreadthFirst next root a) (hb : IsSearchOrder next root b) :
      a <+: b := by
    induction ha with
    | root =>
      obtain ⟨rest, rfl⟩ := hb.steps.exists_cons
      exact ⟨rest, rfl⟩
    | @next before v hbefore hline ih =>
      obtain ⟨rest, rfl⟩ := ih
      cases rest with
      | nil =>
        obtain ⟨hfresh, earlier, u, later, rfl, hnext, -⟩ := hline
        exact absurd (hb.closed u (by simp) v hnext) (by simpa using hfresh)
      | cons w rest =>
        obtain ⟨first, hfirst⟩ := hbefore.exists_cons
        have hnext := hb.steps.nextInLine rfl (by rw [hfirst]; exact List.cons_ne_nil _ _)
        rw [hline.unique hnext]
        exact ⟨rest, by simp⟩
  exact (hinitial h.steps h').eq_of_length_le (hinitial h'.steps h).length_le

/-! ### Queues -/

omit [LinearOrder α] in
/-- A list of lists is cut at an entry of one of them. -/
theorem exists_of_flatMap_eq {β : Type} {f : β → List α} {l : List β} {before later : List α} {x : α}
    (h : l.flatMap f = before ++ x :: later) : ∃ l₁ b l₂ as bs, l = l₁ ++ b :: l₂
      ∧ f b = as ++ x :: bs ∧ before = l₁.flatMap f ++ as := by
  induction l generalizing before with
  | nil => simp at h
  | cons b l ih =>
    rw [List.flatMap_cons] at h
    rcases List.append_eq_append_iff.mp h with ⟨as, rfl, hrest⟩ | ⟨as, hfirst, hrest⟩
    · obtain ⟨l₁, c, l₂, as, bs, rfl, hc, rfl⟩ := ih hrest
      exact ⟨b :: l₁, c, l₂, as, bs, rfl, hc, by simp⟩
    · cases as with
      | nil =>
        obtain ⟨l₁, c, l₂, as, bs, rfl, hc, hbefore⟩ := @ih [] hrest.symm
        rw [List.append_nil] at hfirst
        refine ⟨b :: l₁, c, l₂, as, bs, rfl, hc, ?_⟩
        rw [List.flatMap_cons, List.append_assoc, ← hbefore, hfirst, List.append_nil]
      | cons a as =>
        obtain ⟨rfl, -⟩ := List.cons.inj hrest
        exact ⟨[], b, l, before, as, rfl, hfirst, rfl⟩

variable (next) in
/-- A queue behind the vertices that have been visited: what each of them led to when it was, in
    order, less what has been taken from the front. -/
structure Worklist (root : α) (visited queue : List α) : Prop where
  order : visited = [] ∨ BreadthFirst next root visited
  lines : ∃ (lines : List (α × List α)) (popped : List α), lines.map Prod.fst = visited
    ∧ root :: lines.flatMap Prod.snd = popped ++ queue ∧ (∀ x ∈ popped, x ∈ visited)
    ∧ ∀ p ∈ lines, p.2.Pairwise (· ≤ ·) ∧ (∀ w ∈ p.2, next p.1 w)
      ∧ ∀ w, next p.1 w → w ∈ p.2 ∨ w ∈ visited

theorem worklist_start : Worklist next root [] [root] where
  order := .inl rfl
  lines := ⟨[], [], rfl, rfl, List.forall_mem_nil _, List.forall_mem_nil _⟩

variable {visited queue : List α} {v : α}

/-- A vertex that has been visited is skipped. -/
theorem Worklist.skip (h : Worklist next root visited (v :: queue)) (hv : v ∈ visited) :
    Worklist next root visited queue := by
  obtain ⟨lines, popped, hlines, hqueue, hpopped, hall⟩ := h.lines
  refine ⟨h.order, lines, popped ++ [v], hlines, by simp [hqueue], ?_, hall⟩
  exact List.forall_mem_append.mpr ⟨hpopped, List.forall_mem_singleton.mpr hv⟩

/-- **Order.**  A new vertex at the front of the queue is next in line. -/
theorem Worklist.breadthFirst (h : Worklist next root visited (v :: queue)) (hv : v ∉ visited) :
    BreadthFirst next root (visited ++ [v]) := by
  obtain ⟨lines, popped, hlines, hqueue, hpopped, hall⟩ := h.lines
  rcases h.order with rfl | horder
  · -- Nothing has been visited, so the front is the root.
    obtain rfl := List.map_eq_nil_iff.mp hlines
    cases popped with
    | nil =>
      obtain ⟨rfl, -⟩ := List.cons.inj hqueue
      exact .root
    | cons x popped => exact absurd (hpopped x List.mem_cons_self) (List.not_mem_nil)
  · refine .next horder ⟨hv, ?_⟩
    cases popped with
    | nil =>
      obtain ⟨rest, hrest⟩ := horder.exists_cons
      obtain ⟨rfl, -⟩ := List.cons.inj hqueue
      exact absurd (by simp [hrest]) hv
    | cons x popped =>
      obtain ⟨-, hqueue⟩ := List.cons.inj hqueue
      obtain ⟨l₁, ⟨u, line⟩, l₂, as, bs, rfl, hline, rfl⟩ := exists_of_flatMap_eq hqueue
      obtain ⟨hsorted, hnext, hcomplete⟩ := hall (u, line) (by simp)
      obtain rfl : line = as ++ v :: bs := hline
      rw [← hlines]
      refine ⟨l₁.map Prod.fst, u, l₂.map Prod.fst, by simp, hnext v (by simp), ?_, ?_⟩
      · intro y hy w hw
        obtain ⟨p, hp, rfl⟩ := List.mem_map.mp hy
        rw [hlines]
        rcases (hall p (by simp [hp])).2.2 w hw with hmem | hmem
        · refine hpopped w (List.mem_cons_of_mem _ (List.mem_append_left _ ?_))
          exact List.mem_flatMap.mpr ⟨p, hp, hmem⟩
        · exact hmem
      · intro w hw hfresh
        rw [hlines] at hfresh
        rcases hcomplete w hw with hmem | hmem
        · rcases List.mem_append.mp hmem with hmem | hmem
          · exact absurd (hpopped w (List.mem_cons_of_mem _ (List.mem_append_right _ hmem))) hfresh
          · rcases List.mem_cons.mp hmem with rfl | hmem
            · exact le_rfl
            · exact (List.pairwise_cons.mp (List.pairwise_append.mp hsorted).2.1).1 w hmem
        · exact absurd hmem hfresh

/-- A new vertex is visited, and what it leads to is queued. -/
theorem Worklist.visit (h : Worklist next root visited (v :: queue)) (hv : v ∉ visited)
    {line : List α} (hsorted : line.Pairwise (· ≤ ·)) (hnext : ∀ w ∈ line, next v w)
    (hcomplete : ∀ w, next v w → w ∈ line ∨ w ∈ visited ++ [v]) :
    Worklist next root (visited ++ [v]) (queue ++ line) := by
  obtain ⟨lines, popped, hlines, hqueue, hpopped, hall⟩ := h.lines
  refine ⟨.inr (h.breadthFirst hv), lines ++ [(v, line)], popped ++ [v], by simp [hlines], ?_, ?_, ?_⟩
  · rw [List.flatMap_append, ← List.cons_append, hqueue]
    simp
  · exact List.forall_mem_append.mpr ⟨fun x hx => List.mem_append_left _ (hpopped x hx),
      List.forall_mem_singleton.mpr (by simp)⟩
  · refine List.forall_mem_append.mpr ⟨fun p hp => ?_, List.forall_mem_singleton.mpr ?_⟩
    · obtain ⟨hsorted, hnext, hcomplete⟩ := hall p hp
      exact ⟨hsorted, hnext, fun w hw => (hcomplete w hw).imp_right (List.mem_append_left _)⟩
    · exact ⟨hsorted, hnext, hcomplete⟩

/-- **End.**  When the queue is empty, the visited vertices are the whole order. -/
theorem Worklist.isSearchOrder (h : Worklist next root visited []) :
    IsSearchOrder next root visited := by
  obtain ⟨lines, popped, hlines, hqueue, hpopped, hall⟩ := h.lines
  rw [List.append_nil] at hqueue
  have hroot : root ∈ visited := hpopped root (by simp [← hqueue])
  refine ⟨h.order.resolve_left (List.ne_nil_of_mem hroot), fun u hu w hw => ?_⟩
  rw [← hlines] at hu
  obtain ⟨p, hp, rfl⟩ := List.mem_map.mp hu
  rcases (hall p hp).2.2 w hw with hmem | hmem
  · refine hpopped w ?_
    rw [← hqueue]
    exact List.mem_cons_of_mem _ (List.mem_flatMap.mpr ⟨p, hp, hmem⟩)
  · exact hmem

end BreadthFirst

end Agora
