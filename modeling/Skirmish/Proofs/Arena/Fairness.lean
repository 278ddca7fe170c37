import Mathlib.Data.List.Nodup
import Skirmish.Arena.TurnQueue

/-!
# Everybody gets a turn

A run of the queue is a list of `Step`s, and it is made of complete turns
(`Complete`) if every turn that is started is ended before the next one is
started.  Units may come and go between turns as well as during them.

Everything is said with the units that are `ahead` of one that waits.  As long as
it does not leave, nobody gets ahead of it: others drop out when they leave
(`mem_ahead_apply`), or when their turn ends (`mem_ahead_endTurn`).

Main statement: between two turns of a unit, every other one that waits has
exactly one turn (`one_turn_between`).
-/

namespace Skirmish.Arena.TurnQueue

variable {α : Type} [DecidableEq α]

/-! ## Runs of the queue -/

/-- What can be done to a queue. -/
inductive Step (α : Type) where
  | startTurn
  | endTurn
  | enqueue (u : α)
  | dequeue (u : α)
deriving DecidableEq

namespace Step

/-- The queue after a step. -/
def apply : Step α → TurnQueue α → TurnQueue α
  | startTurn, q => q.startTurn.2
  | endTurn, q => q.endTurn
  | enqueue u, q => q.enqueue u
  | dequeue u, q => q.dequeue u

/-- The unit whose turn is started by a step, if it starts one. -/
def starter? : Step α → TurnQueue α → Option α
  | startTurn, q => q.startTurn.1
  | _, _ => none

/-- A unit comes or goes. -/
def isTraffic : Step α → Bool
  | enqueue _ | dequeue _ => true
  | _ => false

end Step

/-- The queue after some steps. -/
def after (steps : List (Step α)) (q : TurnQueue α) : TurnQueue α :=
  steps.foldl (fun q s ↦ s.apply q) q

/-- The units whose turns are started, in their order. -/
def starters : List (Step α) → TurnQueue α → List α
  | [], _ => []
  | s :: ss, q => (s.starter? q).toList ++ starters ss (s.apply q)

/-- What holds before and after each of some steps. -/
def Throughout (P : TurnQueue α → Prop) : List (Step α) → TurnQueue α → Prop
  | [], q => P q
  | s :: ss, q => P q ∧ Throughout P ss (s.apply q)

instance decidableThroughout (P : TurnQueue α → Prop) [DecidablePred P] :
    (steps : List (Step α)) → (q : TurnQueue α) → Decidable (Throughout P steps q)
  | [], q => inferInstanceAs (Decidable (P q))
  | s :: ss, q =>
    have := decidableThroughout P ss (s.apply q)
    inferInstanceAs (Decidable (P q ∧ Throughout P ss (s.apply q)))

/-- A whole turn. -/
def turn (during : List (Step α)) : List (Step α) := .startTurn :: (during ++ [.endTurn])

/-- Steps that make up whole turns, with coming and going between and during them. -/
inductive Complete : List (Step α) → Prop
  | nil : Complete []
  | traffic {s : Step α} {ss : List (Step α)} (hs : s.isTraffic = true) (h : Complete ss) :
    Complete (s :: ss)
  | turn {during ss : List (Step α)} (hd : ∀ s ∈ during, s.isTraffic = true) (h : Complete ss) :
    Complete (turn during ++ ss)

@[simp] theorem after_nil (q : TurnQueue α) : after [] q = q := rfl

@[simp] theorem after_cons (s : Step α) (ss : List (Step α)) (q : TurnQueue α) :
    after (s :: ss) q = after ss (s.apply q) := rfl

theorem after_append (ss ts : List (Step α)) (q : TurnQueue α) :
    after (ss ++ ts) q = after ts (after ss q) := List.foldl_append

theorem after_turn (during : List (Step α)) (q : TurnQueue α) :
    after (turn during) q = (after during q.startTurn.2).endTurn := by
  rw [turn, after_cons, after_append]
  rfl

theorem starters_append (ss ts : List (Step α)) (q : TurnQueue α) :
    starters (ss ++ ts) q = starters ss q ++ starters ts (after ss q) := by
  induction ss generalizing q with
  | nil => rfl
  | cons s ss ih => simp [starters, ih]

theorem Throughout.head {P : TurnQueue α → Prop} {ss : List (Step α)} {q : TurnQueue α}
    (h : Throughout P ss q) : P q := by
  cases ss with
  | nil => exact h
  | cons s ss => exact h.1

theorem throughout_append {P : TurnQueue α → Prop} {ss ts : List (Step α)} {q : TurnQueue α} :
    Throughout P (ss ++ ts) q ↔ Throughout P ss q ∧ Throughout P ts (after ss q) := by
  induction ss generalizing q with
  | nil => exact ⟨fun h ↦ ⟨h.head, h⟩, And.right⟩
  | cons s ss ih => simp only [List.cons_append, Throughout, after_cons, ih, and_assoc]

theorem Throughout.last {P : TurnQueue α → Prop} {ss : List (Step α)} {q : TurnQueue α}
    (h : Throughout P ss q) : P (after ss q) := by
  rw [← List.append_nil ss] at h
  exact (throughout_append.1 h).2

/-! ## What steps leave alone -/

omit [DecidableEq α] in
@[simp] theorem waiting_startTurn (q : TurnQueue α) : q.startTurn.2.waiting = q.waiting := by
  unfold startTurn
  split <;> rfl

omit [DecidableEq α] in
theorem acting_startTurn {q : TurnQueue α} {u : α} (h : q.startTurn.1 = some u) :
    q.startTurn.2.acting = some u := by
  unfold startTurn at h ⊢
  split at h
  · cases h
  · exact h

/-- Nobody is put into the queue twice. -/
theorem nodup_apply {q : TurnQueue α} (h : q.waiting.Nodup) (s : Step α) :
    (s.apply q).waiting.Nodup := by
  cases s with
  | startTurn => rwa [Step.apply, waiting_startTurn]
  | endTurn => exact q.perm_endTurn.nodup_iff.2 h
  | enqueue u =>
    simp only [Step.apply, enqueue]
    split
    · exact h
    next hu => exact List.nodup_append.2 ⟨h, List.nodup_singleton u, by grind⟩
  | dequeue u => exact h.erase u

theorem nodup_after {q : TurnQueue α} (h : q.waiting.Nodup) (steps : List (Step α)) :
    (after steps q).waiting.Nodup := by
  induction steps generalizing q with
  | nil => exact h
  | cons s ss ih => exact ih (nodup_apply h s)

theorem acting_apply {s : Step α} (hs : s.isTraffic = true) (q : TurnQueue α) :
    (s.apply q).acting = q.acting := by
  cases s with
  | startTurn => cases hs
  | endTurn => cases hs
  | enqueue u =>
    simp only [Step.apply, enqueue]
    split <;> rfl
  | dequeue u => rfl

theorem acting_after {steps : List (Step α)} (hs : ∀ s ∈ steps, s.isTraffic = true)
    (q : TurnQueue α) : (after steps q).acting = q.acting := by
  induction steps generalizing q with
  | nil => rfl
  | cons s ss ih =>
    obtain ⟨hs, hss⟩ := List.forall_mem_cons.1 hs
    rw [after_cons, ih hss, acting_apply hs]

omit [DecidableEq α] in
theorem starter?_eq_none {s : Step α} (hs : s.isTraffic = true) (q : TurnQueue α) :
    s.starter? q = none := by
  cases s with
  | startTurn => cases hs
  | endTurn => cases hs
  | enqueue u => rfl
  | dequeue u => rfl

theorem starters_eq_nil {steps : List (Step α)} (hs : ∀ s ∈ steps, s.isTraffic = true)
    (q : TurnQueue α) : starters steps q = [] := by
  induction steps generalizing q with
  | nil => rfl
  | cons s ss ih =>
    obtain ⟨hs, hss⟩ := List.forall_mem_cons.1 hs
    rw [starters, starter?_eq_none hs, ih hss]
    rfl

/-! ## Those who are ahead -/

/-- Those who will have their turns before a unit that waits. -/
def ahead (q : TurnQueue α) (u : α) : List α := q.waiting.takeWhile (· ≠ u)

@[simp] theorem ahead_startTurn (q : TurnQueue α) (u : α) :
    q.startTurn.2.ahead u = q.ahead u := by
  rw [ahead, waiting_startTurn, ahead]

/-- The next turn is that of a unit with nobody ahead of it. -/
theorem startTurn_fst_eq_some_iff {q : TurnQueue α} {u : α} :
    q.startTurn.1 = some u ↔ u ∈ q.waiting ∧ q.ahead u = [] := by
  unfold startTurn front? ahead
  cases q.waiting with
  | nil => simp
  | cons v vs => by_cases h : v = u <;> simp [h]

/-- Where a queue is written with a unit for the first time, those before it are
ahead of it. -/
theorem ahead_eq {q : TurnQueue α} {u : α} {before : List α} (behind : List α)
    (hq : q.waiting = before ++ u :: behind) (hu : u ∉ before) : q.ahead u = before := by
  have hbefore : ∀ v ∈ before, decide (v ≠ u) = true := by
    rintro v hv
    exact decide_eq_true fun e ↦ hu (e ▸ hv)
  rw [ahead, hq, List.takeWhile_append_of_pos hbefore, List.takeWhile_cons_of_neg (by simp),
    List.append_nil]

theorem exists_waiting_eq {q : TurnQueue α} (hn : q.waiting.Nodup) {u : α} (hu : u ∈ q.waiting) :
    ∃ behind, q.waiting = q.ahead u ++ u :: behind ∧ u ∉ q.ahead u := by
  obtain ⟨before, behind, hq⟩ := List.append_of_mem hu
  have hbefore : u ∉ before := fun h ↦
    (List.nodup_append.1 (hq ▸ hn)).2.2 u h u List.mem_cons_self rfl
  exact ⟨behind, by rw [ahead_eq behind hq hbefore, hq], by rwa [ahead_eq behind hq hbefore]⟩

theorem mem_waiting_of_mem_ahead {q : TurnQueue α} {u v : α} (h : v ∈ q.ahead u) :
    v ∈ q.waiting := (List.takeWhile_sublist _).subset h

theorem ahead_enqueue {q : TurnQueue α} (hn : q.waiting.Nodup) {u : α} (hu : u ∈ q.waiting)
    (v : α) : (q.enqueue v).ahead u = q.ahead u := by
  unfold enqueue
  split
  · rfl
  · obtain ⟨behind, hq, hnot⟩ := exists_waiting_eq hn hu
    refine ahead_eq (behind ++ [v]) ?_ hnot
    rw [← List.cons_append, ← List.append_assoc, ← hq]

theorem ahead_dequeue {q : TurnQueue α} (hn : q.waiting.Nodup) {u v : α} (hu : u ∈ q.waiting)
    (hne : v ≠ u) : (q.dequeue v).ahead u = (q.ahead u).erase v := by
  obtain ⟨behind, hq, hnot⟩ := exists_waiting_eq hn hu
  have herased : u ∉ (q.ahead u).erase v := fun h ↦ hnot (List.mem_of_mem_erase h)
  by_cases hv : v ∈ q.ahead u
  · refine ahead_eq behind ?_ herased
    rw [dequeue, hq, List.erase_append_left _ hv]
  · refine ahead_eq (behind.erase v) ?_ herased
    have hback : (u :: behind).erase v = u :: behind.erase v :=
      List.erase_cons_tail (by simpa using hne.symm)
    rw [dequeue, hq, List.erase_append_right _ hv, hback, List.erase_of_not_mem hv]

/-- While units come and go, those who are ahead of one that stays are those who
were ahead of it before and stay themselves. -/
theorem mem_ahead_apply {s : Step α} (hs : s.isTraffic = true) {q : TurnQueue α}
    (hn : q.waiting.Nodup) {u v : α} (hu : u ∈ q.waiting) (hu' : u ∈ (s.apply q).waiting) :
    v ∈ (s.apply q).ahead u ↔ v ∈ q.ahead u ∧ v ∈ (s.apply q).waiting := by
  cases s with
  | startTurn => cases hs
  | endTurn => cases hs
  | enqueue w =>
    refine ⟨fun h ↦ ⟨?_, mem_waiting_of_mem_ahead h⟩, fun h ↦ ?_⟩
    · rwa [Step.apply, ahead_enqueue hn hu] at h
    · rw [Step.apply, ahead_enqueue hn hu]
      exact h.1
  | dequeue w =>
    have hne : w ≠ u := by
      rintro rfl
      exact hn.not_mem_erase hu'
    have hnodup : (q.ahead u).Nodup := hn.sublist (List.takeWhile_sublist _)
    rw [Step.apply, ahead_dequeue hn hu hne, hnodup.mem_erase_iff]
    refine ⟨fun ⟨hvw, hv⟩ ↦ ⟨hv, ?_⟩, fun ⟨hv, h⟩ ↦ ⟨(hn.mem_erase_iff.1 h).1, hv⟩⟩
    exact hn.mem_erase_iff.2 ⟨hvw, mem_waiting_of_mem_ahead hv⟩

/-- When another unit ends its turn, nobody drops out but that unit, and it does
if it is still at the front. -/
theorem mem_ahead_endTurn {q : TurnQueue α} (hn : q.waiting.Nodup) {u v w : α}
    (hu : u ∈ q.waiting) (hw : q.acting = some w) (hne : w ≠ u) :
    v ∈ q.endTurn.ahead u ↔ v ∈ q.ahead u ∧ (v = w → q.ahead w ≠ []) := by
  obtain ⟨behind, hq, hnot⟩ := exists_waiting_eq hn hu
  have hrotated : q.endTurn.waiting = rotated w q.waiting := by
    unfold endTurn
    rw [hw]
  generalize q.ahead u = before at hq hnot ⊢
  cases before with
  | nil =>
    have hsame : q.endTurn.ahead u = [] := by
      refine ahead_eq behind ?_ List.not_mem_nil
      rw [hrotated, hq]
      exact if_neg hne
    simp [hsame]
  | cons a before =>
    by_cases haw : w = a
    · subst haw
      have hfront : q.ahead w = [] := ahead_eq _ hq List.not_mem_nil
      have hdrop : q.endTurn.ahead u = before := by
        refine ahead_eq (behind ++ [w]) ?_ fun h ↦ hnot (List.mem_cons_of_mem _ h)
        rw [hrotated, hq, List.cons_append]
        simp [rotated]
      have hfresh : w ∉ before := by
        rw [hq, List.cons_append, List.nodup_cons] at hn
        exact fun h ↦ hn.1 (List.mem_append_left _ h)
      rw [hdrop, hfront, List.mem_cons]
      grind
    · have hsame : q.endTurn.ahead u = a :: before := by
        refine ahead_eq behind ?_ hnot
        rw [hrotated, hq, List.cons_append]
        exact if_neg haw
      have hback : q.ahead w ≠ [] := by
        rw [ahead, hq, List.cons_append, List.takeWhile_cons_of_pos (by simpa using Ne.symm haw)]
        exact List.cons_ne_nil _ _
      simp [hsame, hback]

/-! ### Coming and going -/

section Traffic

variable {steps : List (Step α)} {q : TurnQueue α} {u v : α}

/-- Nobody gets ahead of a unit that stays. -/
theorem mem_ahead_of_traffic (hs : ∀ s ∈ steps, s.isTraffic = true) (hn : q.waiting.Nodup)
    (hu : Throughout (u ∈ ·.waiting) steps q) (hv : v ∈ (after steps q).ahead u) :
    v ∈ q.ahead u := by
  induction steps generalizing q with
  | nil => exact hv
  | cons s ss ih =>
    obtain ⟨hs, hss⟩ := List.forall_mem_cons.1 hs
    have hmem := ih hss (nodup_apply hn s) hu.2 hv
    exact ((mem_ahead_apply hs hn hu.1 hu.2.head).1 hmem).1

/-- Whoever stays as well stays ahead. -/
theorem mem_ahead_traffic (hs : ∀ s ∈ steps, s.isTraffic = true) (hn : q.waiting.Nodup)
    (hu : Throughout (u ∈ ·.waiting) steps q) (hv : Throughout (v ∈ ·.waiting) steps q)
    (h : v ∈ q.ahead u) : v ∈ (after steps q).ahead u := by
  induction steps generalizing q with
  | nil => exact h
  | cons s ss ih =>
    obtain ⟨hs, hss⟩ := List.forall_mem_cons.1 hs
    refine ih hss (nodup_apply hn s) hu.2 hv.2 ?_
    exact (mem_ahead_apply hs hn hu.1 hu.2.head).2 ⟨h, hv.2.head⟩

end Traffic

/-! ### Turns of others -/

section Turn

variable {during : List (Step α)} {q : TurnQueue α} {u v w : α}

theorem starters_turn (hd : ∀ s ∈ during, s.isTraffic = true) (q : TurnQueue α) :
    starters (turn during) q = q.startTurn.1.toList := by
  rw [turn, starters, starters_append, starters_eq_nil hd]
  exact List.append_nil _

/-- What stays through a turn stays while others come and go in it. -/
theorem throughout_during {P : TurnQueue α → Prop} (h : Throughout P (turn during) q) :
    Throughout P during q.startTurn.2 := (throughout_append.1 h.2).1

theorem nodup_during (hn : q.waiting.Nodup) (during : List (Step α)) :
    (after during q.startTurn.2).waiting.Nodup :=
  nodup_after (by rwa [waiting_startTurn]) during

theorem acting_during (hd : ∀ s ∈ during, s.isTraffic = true) (hw : q.startTurn.1 = some w) :
    (after during q.startTurn.2).acting = some w :=
  (acting_after hd _).trans (acting_startTurn hw)

/-- While others come and go in a turn, nobody gets ahead of a unit that stays. -/
theorem mem_ahead_of_during (hd : ∀ s ∈ during, s.isTraffic = true) (hn : q.waiting.Nodup)
    (hu : Throughout (u ∈ ·.waiting) (turn during) q)
    (hv : v ∈ (after during q.startTurn.2).ahead u) : v ∈ q.ahead u := by
  have hstart := mem_ahead_of_traffic hd (by rwa [waiting_startTurn]) (throughout_during hu) hv
  rwa [ahead_startTurn] at hstart

/-- Whoever stays through its own turn is at the front when it ends. -/
theorem ahead_during_eq_nil (hd : ∀ s ∈ during, s.isTraffic = true) (hn : q.waiting.Nodup)
    (hw : Throughout (w ∈ ·.waiting) (turn during) q) (hstart : q.startTurn.1 = some w) :
    (after during q.startTurn.2).ahead w = [] := by
  refine List.eq_nil_iff_forall_not_mem.2 fun v hv ↦ ?_
  have hfront := mem_ahead_of_during hd hn hw hv
  rw [(startTurn_fst_eq_some_iff.1 hstart).2] at hfront
  cases hfront

theorem mem_ahead_turn_iff (hd : ∀ s ∈ during, s.isTraffic = true) (hn : q.waiting.Nodup)
    (hu : Throughout (u ∈ ·.waiting) (turn during) q) (hw : q.startTurn.1 = some w)
    (hne : w ≠ u) : v ∈ (after (turn during) q).ahead u ↔
      v ∈ (after during q.startTurn.2).ahead u ∧
        (v = w → (after during q.startTurn.2).ahead w ≠ []) := by
  rw [after_turn]
  exact mem_ahead_endTurn (nodup_during hn during) (throughout_during hu).last
    (acting_during hd hw) hne

/-- Nobody gets ahead of a unit that stays. -/
theorem mem_ahead_of_turn (hd : ∀ s ∈ during, s.isTraffic = true) (hn : q.waiting.Nodup)
    (hu : Throughout (u ∈ ·.waiting) (turn during) q) (hw : q.startTurn.1 = some w)
    (hne : w ≠ u) (hv : v ∈ (after (turn during) q).ahead u) : v ∈ q.ahead u := by
  exact mem_ahead_of_during hd hn hu ((mem_ahead_turn_iff hd hn hu hw hne).1 hv).1

/-- Whoever stays as well stays ahead, but for the one whose turn it was. -/
theorem mem_ahead_turn (hd : ∀ s ∈ during, s.isTraffic = true) (hn : q.waiting.Nodup)
    (hu : Throughout (u ∈ ·.waiting) (turn during) q)
    (hv : Throughout (v ∈ ·.waiting) (turn during) q) (hw : q.startTurn.1 = some w)
    (hne : w ≠ u) (hvw : v ≠ w) (h : v ∈ q.ahead u) : v ∈ (after (turn during) q).ahead u := by
  refine (mem_ahead_turn_iff hd hn hu hw hne).2 ⟨?_, fun e ↦ absurd e hvw⟩
  rw [← ahead_startTurn] at h
  exact mem_ahead_traffic hd (by rwa [waiting_startTurn]) (throughout_during hu)
    (throughout_during hv) h

/-- Whoever stays through its own turn has the others ahead when it is over. -/
theorem notMem_ahead_turn (hd : ∀ s ∈ during, s.isTraffic = true) (hn : q.waiting.Nodup)
    (hu : Throughout (u ∈ ·.waiting) (turn during) q)
    (hw : Throughout (w ∈ ·.waiting) (turn during) q) (hstart : q.startTurn.1 = some w)
    (hne : w ≠ u) : w ∉ (after (turn during) q).ahead u := fun hmem ↦
  ((mem_ahead_turn_iff hd hn hu hstart hne).1 hmem).2 rfl (ahead_during_eq_nil hd hn hw hstart)

/-- When its turn is over, everybody else who waits is ahead of a unit that has
stayed. -/
theorem mem_ahead_own_turn (hd : ∀ s ∈ during, s.isTraffic = true) (hn : q.waiting.Nodup)
    (hu : Throughout (u ∈ ·.waiting) (turn during) q) (hstart : q.startTurn.1 = some u)
    (hne : v ≠ u) : v ∈ (after (turn during) q).ahead u ↔
      v ∈ (after during q.startTurn.2).waiting := by
  have hnodup := nodup_during hn during
  obtain ⟨rest, hq, -⟩ := exists_waiting_eq hnodup (throughout_during hu).last
  rw [ahead_during_eq_nil hd hn hu hstart, List.nil_append] at hq
  have hback : (after (turn during) q).waiting = rest ++ [u] := by
    rw [after_turn]
    exact waiting_endTurn (acting_during hd hstart) hq
  have hrest : u ∉ rest := (List.nodup_cons.1 (hq ▸ hnodup)).1
  rw [ahead_eq [] hback hrest, hq, List.mem_cons]
  exact ⟨Or.inr, fun h ↦ h.resolve_left hne⟩

end Turn

/-! ### Runs -/

section Runs

variable {steps : List (Step α)} {q : TurnQueue α} {u v : α}

omit [DecidableEq α] in
/-- Where somebody waits, a turn can be started. -/
theorem exists_starter (hu : u ∈ q.waiting) : ∃ w, q.startTurn.1 = some w := by
  unfold startTurn front?
  cases hq : q.waiting with
  | nil => simp [hq] at hu
  | cons w ws => exact ⟨w, rfl⟩

/-- Whoever starts a turn is ahead of all others that wait. -/
theorem mem_ahead_of_starter {w : α} (hw : q.startTurn.1 = some w) (hu : u ∈ q.waiting)
    (hne : w ≠ u) : w ∈ q.ahead u := by
  unfold startTurn front? at hw
  unfold ahead
  cases hq : q.waiting with
  | nil => simp [hq] at hu
  | cons x xs =>
    obtain rfl : x = w := by simpa [hq] using hw
    simp [hne]

/-- A unit that is not ahead of another one has no turn before that. -/
theorem notMem_starters (h : Complete steps) (hn : q.waiting.Nodup)
    (hu : Throughout (u ∈ ·.waiting) steps q) (hfirst : u ∉ starters steps q)
    (hv : v ∉ q.ahead u) : v ∉ starters steps q := by
  induction h generalizing q with
  | nil => exact List.not_mem_nil
  | @traffic s ss hs _ ih =>
    rw [starters, starter?_eq_none hs] at hfirst ⊢
    refine ih (nodup_apply hn s) hu.2 hfirst fun hmem ↦ hv ?_
    exact ((mem_ahead_apply hs hn hu.1 hu.2.head).1 hmem).1
  | @turn during ss hd _ ih =>
    obtain ⟨hturn, hrest⟩ := throughout_append.1 hu
    obtain ⟨w, hw⟩ := exists_starter hu.head
    rw [starters_append, starters_turn hd, hw, Option.toList_some, List.singleton_append,
      List.mem_cons, not_or] at hfirst ⊢
    obtain ⟨huw, hfirst⟩ := hfirst
    refine ⟨?_, ih (nodup_after hn _) hrest hfirst fun hmem ↦ hv ?_⟩
    · rintro rfl
      exact hv (mem_ahead_of_starter hw hu.head (Ne.symm huw))
    · exact mem_ahead_of_turn hd hn hturn hw (Ne.symm huw) hmem

/-- A unit that is ahead of another one, when both stay, has one turn before that. -/
theorem count_starters (h : Complete steps) (hn : q.waiting.Nodup)
    (hu : Throughout (u ∈ ·.waiting) steps q) (hfirst : u ∉ starters steps q)
    (hv : Throughout (v ∈ ·.waiting) steps q) (hahead : v ∈ q.ahead u)
    (hnext : (after steps q).startTurn.1 = some u) : (starters steps q).count v = 1 := by
  induction h generalizing q with
  | nil =>
    rw [after_nil, startTurn_fst_eq_some_iff] at hnext
    rw [hnext.2] at hahead
    cases hahead
  | @traffic s ss hs _ ih =>
    rw [starters, starter?_eq_none hs] at hfirst ⊢
    refine ih (nodup_apply hn s) hu.2 hfirst hv.2 ?_ hnext
    exact (mem_ahead_apply hs hn hu.1 hu.2.head).2 ⟨hahead, hv.2.head⟩
  | @turn during ss hd hss ih =>
    obtain ⟨hturn, hrest⟩ := throughout_append.1 hu
    obtain ⟨hvturn, hvrest⟩ := throughout_append.1 hv
    obtain ⟨w, hw⟩ := exists_starter hu.head
    rw [starters_append, starters_turn hd, hw, Option.toList_some, List.singleton_append]
      at hfirst ⊢
    rw [List.mem_cons, not_or] at hfirst
    obtain ⟨huw, hfirst⟩ := hfirst
    rw [after_append] at hnext
    have hnodup := nodup_after hn (turn during)
    by_cases hvw : v = w
    · subst hvw
      have hbehind := notMem_ahead_turn hd hn hturn hvturn hw (Ne.symm huw)
      have hnone := notMem_starters hss hnodup hrest hfirst hbehind
      rw [List.count_cons_self, List.count_eq_zero_of_not_mem hnone]
    · rw [List.count_cons_of_ne (Ne.symm hvw)]
      refine ih hnodup hrest hfirst hvrest ?_ hnext
      exact mem_ahead_turn hd hn hturn hvturn hw (Ne.symm huw) hvw hahead

end Runs

/-- Whatever was done to the queue before, between the start of a turn of `u` and that
of its next one, as long as `u` does not leave:

* another unit that waits when the first of the two turns ends, be it from before
  or because it came during that turn, and does not leave either, starts exactly
  one turn;
* one that does not wait then starts none, whenever it comes after that. -/
theorem one_turn_between {past during between : List (Step α)} {q : TurnQueue α} {u v : α}
    (hq : after past empty = q)
    (hduring : ∀ s ∈ during, s.isTraffic = true) (hbetween : Complete between) (hne : v ≠ u)
    (hstart : q.startTurn.1 = some u)
    (hstay : Throughout (u ∈ ·.waiting) (.startTurn :: (during ++ .endTurn :: between)) q)
    (hnext : (after (.startTurn :: (during ++ .endTurn :: between)) q).startTurn.1 = some u)
    (hfirst : u ∉ starters (during ++ .endTurn :: between) q.startTurn.2) :
    (∀ early late, early ++ late = during →
      Throughout (v ∈ ·.waiting) (late ++ .endTurn :: between) (after (.startTurn :: early) q) →
      (starters (during ++ .endTurn :: between) q.startTurn.2).count v = 1) ∧
    (v ∉ (after (.startTurn :: during) q).waiting →
      v ∉ starters (during ++ .endTurn :: between) q.startTurn.2) := by
  have hrun : Step.startTurn :: (during ++ .endTurn :: between) = turn during ++ between := by
    simp [turn]
  have hstarters : starters (during ++ .endTurn :: between) q.startTurn.2 =
      starters between (after (turn during) q) := by
    rw [starters_append, starters_eq_nil hduring, after_turn]
    rfl
  rw [hrun, after_append] at hnext
  rw [hrun, throughout_append] at hstay
  rw [hstarters] at hfirst ⊢
  obtain ⟨hturn, hrest⟩ := hstay
  have hn : q.waiting.Nodup := hq ▸ nodup_after List.nodup_nil past
  have hmem := mem_ahead_own_turn hduring hn hturn hstart hne
  constructor
  · rintro early late rfl hv
    rw [throughout_append, ← after_append, List.cons_append] at hv
    refine count_starters hbetween (nodup_after hn _) hrest hfirst ?_ (hmem.2 hv.2.head) hnext
    rw [after_turn]
    exact hv.2.2
  · intro hv
    exact notMem_starters hbetween (nodup_after hn _) hrest hfirst (mt hmem.1 hv)

/-- Of four units the third comes during the turn of the first and has its turn
before the next one of the first; the fourth comes later and has to wait.  The
second leaves and comes back in its own turn. -/
theorem one_turn_between_newcomers :
    let q := after [.enqueue 1, .enqueue 2] (empty : TurnQueue Nat)
    let between := turn [.dequeue 2, .enqueue 2] ++ .enqueue 4 :: turn []
    q.startTurn.1 = some 1 ∧
      starters (.enqueue 3 :: .endTurn :: between) q.startTurn.2 = [2, 3] ∧
      (starters (.enqueue 3 :: .endTurn :: between) q.startTurn.2).count 3 = 1 ∧
      4 ∉ starters (.enqueue 3 :: .endTurn :: between) q.startTurn.2 := by
  have hlast : Complete (turn ([] : List (Step Nat)) ++ []) := .turn (by decide) .nil
  have hbetween : Complete (turn [.dequeue 2, .enqueue 2] ++ .enqueue 4 :: turn []) :=
    .turn (by decide) (.traffic rfl hlast)
  have hthird := @one_turn_between Nat _ [.enqueue 1, .enqueue 2] [.enqueue 3] _ _ 1 3 rfl
    (by decide) hbetween (by decide) (by decide) (by decide) (by decide) (by decide)
  have hfourth := @one_turn_between Nat _ [.enqueue 1, .enqueue 2] [.enqueue 3] _ _ 1 4 rfl
    (by decide) hbetween (by decide) (by decide) (by decide) (by decide) (by decide)
  exact ⟨by decide, by decide, hthird.1 [.enqueue 3] [] rfl (by decide), hfourth.2 (by decide)⟩

end Skirmish.Arena.TurnQueue
