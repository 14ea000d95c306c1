import Mathlib.Data.List.Basic
import Mathlib.Data.List.Nodup
import Mathlib.Data.List.Perm.Basic
import Mathlib.Tactic.Common
import RobotProgram.Limits
import RobotProgram.Proofs.NumberOrder

/-!
# Mechanisms and their slots

The mechanisms of a robot are read in three ways: one after the other, by a search for the number of
a slot, and as tables over the slots into which they are written in turn. Mechanisms on distinct
slots make these agree: the search finds the one mechanism on the slot
(`mechanism?_eq_some_iff`), and it is also the one that is left in a table (`get_slotTable`). So
the messages about a position are one for each slot whose mechanism has no value there, or one that
it does not reach (`Robot.exists_reports`).
-/

namespace RobotProgram

section Slots

variable {α : Type} {m : Mechanism α} {ms : List (Mechanism α)}

/-- A mechanism that is found by its number is the only one with it. -/
theorem find_number_eq_some_iff (h : (ms.map (·.number)).Nodup) {number : Int} :
    (ms.find? fun m => m.number == number) = some m ↔ m ∈ ms ∧ m.number = number := by
  constructor
  · intro hfind
    exact ⟨List.mem_of_find?_eq_some hfind, by simpa using List.find?_some hfind⟩
  · rintro ⟨hm, rfl⟩
    obtain ⟨m', hfind⟩ : ∃ m', (ms.find? fun n => n.number == m.number) = some m' := by
      rw [← Option.isSome_iff_exists, List.find?_isSome]
      exact ⟨m, hm, beq_self_eq_true _⟩
    have hmem := List.mem_of_find?_eq_some hfind
    have hnumber : m'.number = m.number := by simpa using List.find?_some hfind
    rw [hfind, List.inj_on_of_nodup_map h hmem hm hnumber]

/-- A table over the slots into which something of each mechanism is written in turn. -/
def slotTable {β : Type} (f : Mechanism α → β) (table : Vector β 6) (ms : List (Mechanism α)) :
    Vector β 6 :=
  ms.foldl (fun v m => v.setIfInBounds m.number.toNat (f m)) table

/-- A table holds what was written of the mechanism on a slot, and else what it held before. -/
theorem get_slotTable {β : Type} (f : Mechanism α → β) (table : Vector β 6)
    (hrange : ∀ m ∈ ms, 0 ≤ m.number) (hdistinct : (ms.map (·.number)).Nodup) (n : Fin 6) :
    (slotTable f table ms).get n =
      (ms.find? fun m => m.number == (n.val : Int)).elim (table.get n) f := by
  induction ms generalizing table with
  | nil => rfl
  | cons m ms ih =>
    rw [List.forall_mem_cons] at hrange
    rw [List.map_cons, List.nodup_cons] at hdistinct
    have hrest := ih (table.setIfInBounds m.number.toNat (f m)) hrange.2 hdistinct.2
    rw [slotTable, List.foldl_cons]
    refine hrest.trans ?_
    by_cases hn : m.number = (n.val : Int)
    · -- No later mechanism is written into the same slot.
      have hnone : (ms.find? fun m => m.number == (n.val : Int)) = none := by
        rw [List.find?_eq_none]
        intro m' hm' hnumber
        apply hdistinct.1
        rw [hn, ← beq_iff_eq.mp hnumber]
        exact List.mem_map_of_mem hm'
      have hplace : m.number.toNat = n := by omega
      have hwritten : (table.setIfInBounds m.number.toNat (f m)).get n = f m := by
        rw [hplace]
        exact Vector.getElem_setIfInBounds_self _
      rw [hnone, Option.elim_none, hwritten, List.find?_cons_of_pos (by simpa using hn)]
      rfl
    · have hplace : m.number.toNat ≠ n := by omega
      have hkept : (table.setIfInBounds m.number.toNat (f m)).get n = table.get n :=
        Vector.getElem_setIfInBounds_ne _ hplace
      rw [hkept, List.find?_cons_of_neg (by simpa using hn)]

end Slots

/-! ### Messages -/

section Messages

variable {α : Type} [Scalar α]

/-- Whether a mechanism gives cause for a message: its slot holds no value that it reaches. -/
def Mechanism.isTroubled (slots : Slots α) (m : Mechanism α) : Bool :=
  (slotValue slots m).all fun x => !m.reaches x

/-- What is wrong with a slot, if anything is. -/
def slotProblem (s : Option α) : String := if s.isNone then "defined (9E9)." else "in range."

/-- A mechanism is reported exactly if there is something wrong with its slot. -/
theorem checkMechanism_eq (owner : String) (slots : Slots α) (m : Mechanism α) :
    checkMechanism owner slots m = if m.isTroubled slots then
      some (mechanismMessage owner m (slotProblem (slotValue slots m))) else none := by
  unfold checkMechanism Mechanism.isTroubled
  cases slotValue slots m with
  | none => rfl
  | some x => cases hm : m.reaches x <;> simp [hm, slotProblem]

/-- The messages are about the mechanisms that give cause for one, in their order. -/
theorem checkSlots_eq (r : Robot α) (owner : String) (slots : Slots α) :
    checkSlots r owner slots = (r.mechanisms.filter (·.isTroubled slots)).map fun m =>
      mechanismMessage owner m (slotProblem (slotValue slots m)) := by
  unfold checkSlots
  induction r.mechanisms with
  | nil => rfl
  | cons m ms ih =>
    rw [List.filterMap_cons, List.filter_cons, checkMechanism_eq]
    split_ifs
    · rw [List.map_cons, ih]
    · exact ih

/-- In another order of the mechanisms the messages are the same in another order. -/
theorem checkSlots_perm {r r' : Robot α} (h : r.mechanisms.Perm r'.mechanisms) (owner : String)
    (slots : Slots α) : (checkSlots r owner slots).Perm (checkSlots r' owner slots) :=
  h.filterMap _

end Messages

/-! ### Robots -/

namespace Robot

section Numbers

variable {α : Type} {m : Mechanism α}

/-- The search for a slot finds the one mechanism on it. -/
theorem mechanism?_eq_some_iff (r : Robot α) {number : Int} :
    r.mechanism? number = some m ↔ m ∈ r.mechanisms ∧ m.number = number :=
  find_number_eq_some_iff r.wellNumbered.2.2

/-- The slot of a mechanism. -/
def slotIndex (m : Mechanism α) : Fin 6 := ⟨m.number.toNat % 6, Nat.mod_lt _ (by decide)⟩

/-- The index of a slot is the number of its mechanism. -/
theorem slotIndex_val {r : Robot α} (hm : m ∈ r.mechanisms) :
    ((slotIndex m).val : Int) = m.number := by
  have hrange := r.wellNumbered.2.1 m hm
  have hval : (slotIndex m).val = m.number.toNat % 6 := rfl
  omega

/-- The mechanism that is found on the slot of a mechanism is that one. -/
theorem mechanism?_slotIndex {r : Robot α} (hm : m ∈ r.mechanisms) :
    r.mechanism? (slotIndex m).val = some m :=
  r.mechanism?_eq_some_iff.mpr ⟨hm, (slotIndex_val hm).symm⟩

/-- The value for a mechanism is that of its slot. -/
theorem slotValue_eq {slots : Slots α} {n : Fin 6} (h : m.number = (n.val : Int)) :
    slotValue slots m = slots.get n := by
  have hplace : m.number.toNat = n.val := by omega
  simp [slotValue, hplace, Vector.get]

end Numbers

variable {α : Type} [Scalar α]

/-- A robot is made exactly of six axes, a tool whose tip can be moved onto the flange, and
mechanisms on distinct slots. -/
theorem make_isOk_iff {name : Value} {frames : List (Frame α)} {limits : List (Interval α)}
    {base mounting : Frame α} {tool : Tool α} {ms : List (Mechanism α)} :
    (∃ r, make name frames limits base mounting tool ms = .ok r) ↔
      frames.length = 6 ∧ limits.length = 6 ∧ (∃ tip, tool.attachedTip mounting = .ok tip) ∧
        WellNumbered ms := by
  unfold make
  constructor
  · rintro ⟨r, h⟩
    split_ifs at h with hframes hlimits
    obtain ⟨tip, htip, h⟩ := Outcome.bind_eq_ok.mp h
    obtain ⟨checked, hcheck, -⟩ := Outcome.bind_eq_ok.mp h
    exact ⟨hframes, hlimits, ⟨tip, htip⟩, checkMechanisms_eq_ok.mp hcheck ▸ checked.2⟩
  · rintro ⟨hframes, hlimits, ⟨tip, htip⟩, hms⟩
    have hcheck : checkMechanisms name ms = .ok ⟨ms, hms⟩ := checkMechanisms_eq_ok.mpr rfl
    rw [dif_pos hframes, dif_pos hlimits, htip, Outcome.ok_bind, hcheck]
    exact ⟨_, rfl⟩

/-- The mechanisms of a robot are those that it is made with. -/
theorem mechanisms_of_make {name : Value} {frames : List (Frame α)} {limits : List (Interval α)}
    {base mounting : Frame α} {tool : Tool α} {ms : List (Mechanism α)} {r : Robot α}
    (h : make name frames limits base mounting tool ms = .ok r) : r.mechanisms = ms := by
  unfold make at h
  split_ifs at h with hframes hlimits
  obtain ⟨tip, htip, h⟩ := Outcome.bind_eq_ok.mp h
  obtain ⟨checked, hcheck, h⟩ := Outcome.bind_eq_ok.mp h
  obtain rfl := Outcome.pure_eq_ok.mp h
  exact checkMechanisms_eq_ok.mp hcheck

/-- The limits of a slot are those of the mechanism on it. -/
theorem get_slotLimits (r : Robot α) (n : Fin 6) :
    r.slotLimits.get n = (r.mechanism? n.val).elim .zero (·.limits) := by
  have htable := get_slotTable Mechanism.limits (Vector.replicate 6 .zero)
    (fun m hm => (r.wellNumbered.2.1 m hm).1) r.wellNumbered.2.2 n
  have hdefault : (Vector.replicate 6 (Interval.zero : Interval α)).get n = .zero := by
    simp [Vector.get]
  rwa [hdefault] at htable

/-- The frame of a slot is that of the mechanism on it. -/
theorem get_slotFrames (r : Robot α) (n : Fin 6) :
    r.slotFrames.get n = (r.mechanism? n.val).elim .world (·.frame) := by
  have htable := get_slotTable Mechanism.frame (Vector.replicate 6 .world)
    (fun m hm => (r.wellNumbered.2.1 m hm).1) r.wellNumbered.2.2 n
  have hdefault : (Vector.replicate 6 (Frame.world : Frame α)).get n = .world := by
    simp [Vector.get]
  rwa [hdefault] at htable

/-- A slot gives cause for a message: the mechanism on it has no value there, or one that it does
not reach. -/
def Troubled (r : Robot α) (slots : Slots α) (n : Fin 6) : Prop :=
  ∃ m, r.mechanism? n.val = some m ∧ ∀ x, slots.get n = some x → m.reaches x = false

/-- The messages about a position are one for each of some slots. -/
structure Reports (r : Robot α) (owner : String) (slots : Slots α) (ns : List (Fin 6)) : Prop where
  nodup : ns.Nodup
  mem_iff : ∀ n, n ∈ ns ↔ r.Troubled slots n
  order : (ns.map fun n => (n.val : Int)).Sublist (r.mechanisms.map (·.number))
  messages : List.Forall₂ (fun n message => ∃ m, r.mechanism? n.val = some m ∧
      message = mechanismMessage owner m (slotProblem (slots.get n))) ns (checkSlots r owner slots)

/-- There is one message for each slot that gives cause for one, and no other. -/
theorem exists_reports (r : Robot α) (owner : String) (slots : Slots α) :
    ∃ ns, r.Reports owner slots ns := by
  have hmem {m : Mechanism α} (hm : m ∈ r.mechanisms.filter (·.isTroubled slots)) :
      m ∈ r.mechanisms := List.mem_of_mem_filter hm
  have horder : (((r.mechanisms.filter (·.isTroubled slots)).map slotIndex).map
      fun n => (n.val : Int)).Sublist (r.mechanisms.map (·.number)) := by
    have hnumbers : ((r.mechanisms.filter (·.isTroubled slots)).map slotIndex).map
        (fun n => (n.val : Int)) = (r.mechanisms.filter (·.isTroubled slots)).map (·.number) := by
      rw [List.map_map]
      exact List.map_congr_left fun m hm => slotIndex_val (hmem hm)
    rw [hnumbers]
    exact List.filter_sublist.map _
  refine ⟨(r.mechanisms.filter (·.isTroubled slots)).map slotIndex, ?_, ?_, horder, ?_⟩
  · exact (horder.nodup r.wellNumbered.2.2).of_map _
  · intro n
    rw [List.mem_map]
    constructor
    · rintro ⟨m, hm, rfl⟩
      have htroubled := List.of_mem_filter hm
      rw [Mechanism.isTroubled, slotValue_eq (slotIndex_val (hmem hm)).symm] at htroubled
      refine ⟨m, mechanism?_slotIndex (hmem hm), fun x hx => ?_⟩
      rw [hx] at htroubled
      simpa using htroubled
    · rintro ⟨m, hm, hreaches⟩
      obtain ⟨hm, hnumber⟩ := r.mechanism?_eq_some_iff.mp hm
      have htroubled : m.isTroubled slots = true := by
        rw [Mechanism.isTroubled, slotValue_eq hnumber]
        cases hslot : slots.get n with
        | none => rfl
        | some x => simp [hreaches x hslot]
      refine ⟨m, List.mem_filter.mpr ⟨hm, htroubled⟩, ?_⟩
      have hval := slotIndex_val hm
      ext
      omega
  · rw [checkSlots_eq, List.forall₂_map_left_iff, List.forall₂_map_right_iff, List.forall₂_same]
    intro m hm
    refine ⟨m, mechanism?_slotIndex (hmem hm), ?_⟩
    rw [slotValue_eq (slotIndex_val (hmem hm)).symm]

/-- The tables over the slots and the search for a slot agree. -/
structure SlotsAgree (r : Robot α) (n : Fin 6) : Prop where
  found : ∀ m, r.mechanism? n.val = some m ↔ m ∈ r.mechanisms ∧ m.number = n.val
  limits : r.slotLimits.get n = (r.mechanism? n.val).elim .zero (·.limits)
  frame : r.slotFrames.get n = (r.mechanism? n.val).elim .world (·.frame)

/-- A robot is made exactly of six axes, a tool whose tip can be moved onto the flange, and at most
six mechanisms with distinct numbers of slots. Its tables over the slots hold what the search for a
slot finds. The messages about a position are one for each slot with a mechanism that has no value
there, or one that is not between its bounds, and another order of the mechanisms only changes
their order. -/
theorem slots_agree_with_mechanisms (name : Value) (frames : List (Frame Float))
    (limits : List (Interval Float)) (base mounting : Frame Float) (tool : Tool Float)
    (ms : List (Mechanism Float)) :
    ((∃ r, make name frames limits base mounting tool ms = .ok r) ↔
      frames.length = 6 ∧ limits.length = 6 ∧ (∃ tip, tool.attachedTip mounting = .ok tip) ∧
        ms.length ≤ 6 ∧ (∀ m ∈ ms, 0 ≤ m.number ∧ m.number < 6) ∧
        (ms.map (·.number)).Nodup) ∧
    (∀ r, make name frames limits base mounting tool ms = .ok r →
      r.mechanisms = ms ∧ (∀ n, r.SlotsAgree n) ∧
      (∀ owner slots, ∃ ns, r.Reports owner slots ns) ∧
      ∀ ms' r', ms.Perm ms' → make name frames limits base mounting tool ms' = .ok r' →
        ∀ owner slots, (checkSlots r owner slots).Perm (checkSlots r' owner slots)) ∧
    ∀ m ∈ ms, ∀ x, m.reaches x = true ↔
      (m.limits.start ≤ x ∧ x ≤ m.limits.stop) ∨ (m.limits.stop ≤ x ∧ x ≤ m.limits.start) ∨
        (m.limits.stop == m.limits.stop) = false ∧ (x == m.limits.start) = true := by
  refine ⟨make_isOk_iff, fun r h => ?_, fun m _ x => m.limits.includes_iff x⟩
  have hms := mechanisms_of_make h
  refine ⟨hms, fun n => ?_, r.exists_reports, fun ms' r' hperm h' => ?_⟩
  · exact ⟨fun m => r.mechanism?_eq_some_iff, r.get_slotLimits n, r.get_slotFrames n⟩
  · refine checkSlots_perm ?_
    rwa [hms, mechanisms_of_make h']

/-- A rail whose bounds are given from right to left, on the third slot. -/
def rail : Mechanism Float :=
  ⟨.text "rail", .linear, .world, ⟨4000.0, 0.0⟩, 2, .text "c"⟩

/-- A table on the first slot. -/
def table : Mechanism Float :=
  ⟨.text "table", .rotational, .world, ⟨-180.0, 180.0⟩, 0, .text "a"⟩

/-- A robot with both, and a position on the rail that leaves the table undefined. -/
theorem slots_agree_with_mechanisms_rail :
    ∃ r, make (.text "cell") (List.replicate 6 .world) (List.replicate 6 ⟨-180.0, 180.0⟩)
        .world .world .default [rail, table] = .ok r ∧
      (∀ n, r.SlotsAgree n) ∧ r.mechanism? 2 = some rail ∧ r.mechanism? 1 = none ∧
      checkSlots r "pick" #v[none, none, some 1500.0, none, none, none] =
        ["pick: The position of external logical axis a is not defined (9E9)."] := by
  obtain ⟨hmake, hmade, -⟩ := slots_agree_with_mechanisms (.text "cell")
    (List.replicate 6 .world) (List.replicate 6 ⟨-180.0, 180.0⟩) .world .world .default
    [rail, table]
  have htip : ∃ tip : Frame Float, Tool.default.attachedTip .world = .ok tip := by
    have hok : (Tool.default.attachedTip (.world : Frame Float)).isOk = true := by decide +kernel
    cases h : Tool.default.attachedTip (.world : Frame Float) with
    | ok tip => exact ⟨tip, rfl⟩
    | error f =>
      rw [h] at hok
      cases hok
  obtain ⟨r, hr⟩ := hmake.mpr ⟨rfl, rfl, htip, by decide, by decide, by decide⟩
  obtain ⟨hms, hagree, -, -⟩ := hmade r hr
  refine ⟨r, hr, hagree, ?_, ?_, ?_⟩
  · rw [mechanism?, hms]
    rfl
  · rw [mechanism?, hms]
    rfl
  · rw [checkSlots, hms]
    decide +kernel

end Robot

end RobotProgram
