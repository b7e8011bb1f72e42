import Mathlib.Tactic
import RefineMesh.FreeList

/-!
# Doubly linked lists in an array of slots

A segment of slots, each with a link to the slot before it and one to the slot
after it.  The links that leave the segment are part of its description, so
that segments can be cut and joined.
-/

namespace SlotList

variable {previous previous' next next' : Nat → Int} {before after : Int}

/-- The link to a segment from the left. -/
def headLink (slots : List Nat) (after : Int) : Int :=
  match slots with
  | [] => after
  | k :: _ => k

/-- The link to a segment from the right. -/
def lastLink (before : Int) : List Nat → Int
  | [] => before
  | k :: rest => lastLink k rest

/-- The slots are linked both ways, and to `before` and `after` at the ends. -/
def Linked (previous next : Nat → Int) : Int → List Nat → Int → Prop
  | _, [], _ => True
  | before, k :: rest, after =>
      previous k = before ∧ next k = headLink rest after ∧ Linked previous next k rest after

@[simp] theorem lastLink_concat (before : Int) (slots : List Nat) (k : Nat) :
    lastLink before (slots ++ [k]) = k := by
  induction slots generalizing before with
  | nil => rfl
  | cons j slots ih => exact ih j

theorem lastLink_append_cons (before : Int) (slots : List Nat) (k : Nat) (rest : List Nat) :
    lastLink before (slots ++ k :: rest) = lastLink k rest := by
  induction slots generalizing before with
  | nil => rfl
  | cons j slots ih => exact ih j

/-- Only the links of the slots of the segment matter. -/
theorem Linked.congr {slots : List Nat} (h : Linked previous next before slots after)
    (hprevious : ∀ k ∈ slots, previous' k = previous k) (hnext : ∀ k ∈ slots, next' k = next k) :
    Linked previous' next' before slots after := by
  induction slots generalizing before with
  | nil => trivial
  | cons k slots ih =>
      obtain ⟨h1, h2, h3⟩ := h
      refine ⟨?_, ?_, ?_⟩
      · rw [hprevious k List.mem_cons_self, h1]
      · rw [hnext k List.mem_cons_self, h2]
      · exact ih h3 (fun j hj => hprevious j (List.mem_cons_of_mem _ hj))
          fun j hj => hnext j (List.mem_cons_of_mem _ hj)

/-- Segments are joined where their links meet. -/
theorem linked_append {slots rest : List Nat} :
    Linked previous next before (slots ++ rest) after ↔
      Linked previous next before slots (headLink rest after) ∧
        Linked previous next (lastLink before slots) rest after := by
  induction slots generalizing before with
  | nil => simp [Linked, lastLink]
  | cons k slots ih =>
      have hhead : headLink (slots ++ rest) after = headLink slots (headLink rest after) := by
        cases slots <;> rfl
      simp only [List.cons_append, Linked, ih, hhead, lastLink, and_assoc]

/-- The link that leaves a segment to the right is that of its last slot. -/
theorem Linked.setAfter {slots : List Nat} {k : Nat}
    (h : Linked previous next before (slots ++ [k]) after) (hk : k ∉ slots) (after' : Int) :
    Linked previous (Function.update next k after') before (slots ++ [k]) after' := by
  rw [linked_append] at h ⊢
  obtain ⟨h1, h2, _⟩ := h
  refine ⟨h1.congr (fun _ _ => rfl) ?_, h2, Function.update_self _ _ _, trivial⟩
  intro j hj
  exact Function.update_of_ne (ne_of_mem_of_not_mem hj hk) _ _

/-- The link that leaves a segment to the left is that of its first slot. -/
theorem Linked.setBefore {slots : List Nat} {k : Nat}
    (h : Linked previous next before (k :: slots) after) (hk : k ∉ slots) (before' : Int) :
    Linked (Function.update previous k before') next before' (k :: slots) after := by
  obtain ⟨_, h2, h3⟩ := h
  refine ⟨Function.update_self _ _ _, h2, h3.congr ?_ fun _ _ => rfl⟩
  intro j hj
  exact Function.update_of_ne (ne_of_mem_of_not_mem hj hk) _ _

/-- A link is written unless it would leave the list. -/
def relink (stop : Int) (links : Nat → Int) (slot value : Int) : Nat → Int :=
  if slot ≠ stop then Function.update links slot.toNat value else links

/-- **Append.**  A new slot after the last one. -/
theorem Linked.append {stop : Int} (hstop : ∀ k : Nat, (k : Int) ≠ stop) {slots : List Nat}
    (h : Linked previous next stop slots stop) (hnodup : slots.Nodup) {k : Nat} (hk : k ∉ slots) :
    Linked (Function.update previous k (lastLink stop slots))
      (Function.update (relink stop next (lastLink stop slots) k) k stop) stop (slots ++ [k])
      stop := by
  have hself : Linked (Function.update previous k (lastLink stop slots))
      (Function.update (relink stop next (lastLink stop slots) k) k stop) (lastLink stop slots) [k]
      stop := ⟨Function.update_self _ _ _, Function.update_self _ _ _, trivial⟩
  refine linked_append.mpr ⟨?_, hself⟩
  change Linked _ _ _ _ (k : Int)
  rcases List.eq_nil_or_concat slots with rfl | ⟨front, j, rfl⟩
  · trivial
  · rw [List.concat_eq_append] at *
    have hj : j ∉ front := by
      rw [List.nodup_append] at hnodup
      exact fun hin => hnodup.2.2 j hin j List.mem_cons_self rfl
    have hne : j ≠ k := fun e => hk (by simp [e])
    refine (h.setAfter hj k).congr ?_ ?_
    · intro i hi
      exact Function.update_of_ne (ne_of_mem_of_not_mem hi hk) _ _
    · intro i hi
      rw [Function.update_of_ne (ne_of_mem_of_not_mem hi hk), lastLink_concat, relink,
        if_pos (hstop j), Int.toNat_natCast]

/-- **Unlink.**  The neighbors of a slot are linked to each other. -/
theorem Linked.unlink {stop : Int} (hstop : ∀ k : Nat, (k : Int) ≠ stop) {front rest : List Nat}
    {k : Nat} (h : Linked previous next stop (front ++ k :: rest) stop)
    (hnodup : (front ++ k :: rest).Nodup) :
    Linked (relink stop previous (next k) (previous k)) (relink stop next (previous k) (next k))
      stop (front ++ rest) stop := by
  obtain ⟨h1, h2, h3, h4⟩ := linked_append.mp h
  rw [List.nodup_append, List.nodup_cons] at hnodup
  obtain ⟨hfront, ⟨_, hrest⟩, hdisjoint⟩ := hnodup
  have hapart : ∀ i ∈ front, i ∉ rest := fun i hi hi' =>
    hdisjoint i hi i (List.mem_cons_of_mem _ hi') rfl
  rw [h2, h3]
  refine linked_append.mpr ⟨?_, ?_⟩
  · -- the slots before it: only the link of the last of them changes
    have hback : ∀ i ∈ front,
        relink stop previous (headLink rest stop) (lastLink stop front) i = previous i := by
      intro i hi
      cases rest with
      | nil => simp [relink, headLink]
      | cons j rest =>
          rw [relink, headLink, if_pos (hstop j), Int.toNat_natCast]
          exact Function.update_of_ne (ne_of_mem_of_not_mem List.mem_cons_self (hapart i hi)).symm _ _
    rcases List.eq_nil_or_concat front with rfl | ⟨init, j, rfl⟩
    · trivial
    · rw [List.concat_eq_append] at *
      have hj : j ∉ init := by
        rw [List.nodup_append] at hfront
        exact fun hin => hfront.2.2 j hin j List.mem_cons_self rfl
      refine (h1.setAfter hj (headLink rest stop)).congr hback ?_
      intro i _
      rw [lastLink_concat, relink, if_pos (hstop j), Int.toNat_natCast]
  · -- the slots after it: only the link of the first of them changes
    have hforth : ∀ i ∈ rest,
        relink stop next (lastLink stop front) (headLink rest stop) i = next i := by
      intro i hi
      rcases List.eq_nil_or_concat front with rfl | ⟨init, j, rfl⟩
      · simp [relink, lastLink]
      · rw [List.concat_eq_append] at *
        rw [lastLink_concat, relink, if_pos (hstop j), Int.toNat_natCast]
        exact Function.update_of_ne (ne_of_mem_of_not_mem hi (hapart j (by simp))) _ _
    cases rest with
    | nil => trivial
    | cons j rest =>
        have hj : j ∉ rest := (List.nodup_cons.mp hrest).1
        refine (h4.setBefore hj (lastLink stop front)).congr ?_ hforth
        intro i _
        rw [headLink, relink, if_pos (hstop j), Int.toNat_natCast]

end SlotList
