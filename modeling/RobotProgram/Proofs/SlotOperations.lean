import Mathlib.Data.List.Basic
import Mathlib.Tactic.Common
import RobotProgram.Action.Position
import RobotProgram.Proofs.LineBreaks
import RobotProgram.Proofs.Literals
import RobotProgram.Proofs.Records

/-!
# Operations on external slots

An undefined slot is given as nothing, or as the number nine billion in any form that reads as a
number. It is held as nothing, is written as that number in data, and as a word in program text.

`SlotOperation.Effect` says which operations succeed and what they make of the slots. A run of
operations is a chain of such effects in which an operation that fails leaves the slots
(`reaches_after`), and no effect puts the number for undefined among the values (`Effect.apart`). So
what is written of a position tells its undefined slots from its values, in data and in program text
(`slots_stay_apart`).
-/

namespace RobotProgram

/-! ### Places -/

/-- An item is there if its index is, counted from either end. -/
theorem itemAt_eq_ok {α : Type} {xs : List α} {n : Int} {x : α} :
    itemAt xs n = .ok x ↔ -2 ^ 63 ≤ n ∧ n < 2 ^ 63 ∧ 0 ≤ n + xs.length ∧
      xs[(if n < 0 then n + xs.length else n).toNat]? = some x := by
  unfold itemAt
  generalize (if n < 0 then n + xs.length else n).toNat = place
  by_cases hword : -2 ^ 63 ≤ n ∧ n < 2 ^ 63
  · have hhuge : ¬(decide (n < -Nat.pow 2 63) || decide (Nat.pow 2 63 ≤ n)) = true := by
      simp only [Bool.or_eq_true, decide_eq_true_eq, Nat.pow_eq]
      push_cast
      omega
    rw [if_neg hhuge, and_iff_right hword.1, and_iff_right hword.2]
    cases xs[place]? with
    | none => simp
    | some y => by_cases hlow : 0 ≤ n + (xs.length : Int) <;> simp [hlow]
  · have hhuge : (decide (n < -Nat.pow 2 63) || decide (Nat.pow 2 63 ≤ n)) = true := by
      simp only [Bool.or_eq_true, decide_eq_true_eq, Nat.pow_eq]
      push_cast
      omega
    rw [if_pos hhuge]
    exact iff_of_false nofun fun h => hword ⟨h.1, h.2.1⟩

/-- An index of six places is a whole number from `-6` to `5`. -/
theorem placeOf_eq_ok {index : Value} {i : Fin 6} :
    placeOf index = .ok i ↔
      ∃ a n, index = .atom a ∧ a.whole? = some n ∧ -6 ≤ n ∧ n < 6 ∧ n % 6 = i := by
  have hitem (n : Int) :
      itemAt (List.finRange 6) n = .ok i ↔ -6 ≤ n ∧ n < 6 ∧ n % 6 = i := by
    rw [itemAt_eq_ok, List.length_finRange]
    constructor
    · rintro ⟨-, -, hlow, hget⟩
      obtain ⟨hlt, rfl⟩ := List.getElem?_eq_some_iff.mp hget
      rw [List.length_finRange] at hlt
      simp only [List.getElem_finRange, Fin.val_cast]
      split_ifs at hlt ⊢ <;> omega
    · rintro ⟨hlow, hhigh, hi⟩
      refine ⟨by omega, by omega, by push_cast; omega, ?_⟩
      have hplace : (if n < 0 then n + (6 : Nat) else n).toNat = i.val := by
        split_ifs <;> omega
      rw [hplace, List.getElem?_eq_some_iff]
      exact ⟨by simp, by ext; simp⟩
  unfold placeOf
  split
  · rename_i n
    rw [hitem]
    exact ⟨fun h => ⟨_, n, rfl, rfl, h⟩, by rintro ⟨_, _, ⟨⟩, ⟨⟩, h⟩; exact h⟩
  · rename_i b
    rw [hitem]
    exact ⟨fun h => ⟨_, _, rfl, rfl, h⟩, by rintro ⟨_, _, ⟨⟩, ⟨⟩, h⟩; exact h⟩
  · rename_i hint hbool
    refine ⟨nofun, ?_⟩
    rintro ⟨a, n, rfl, ha, -⟩
    cases a with
    | int m => exact absurd rfl (hint m)
    | bool b => exact absurd rfl (hbool b)
    | null | float x | text s | date y m d | moment y m d c => cases ha

/-- A field that must be there is read exactly if it is. -/
theorem Record.required_eq_ok {action key : String} {es : List (Atom × Value)} {v : Value} :
    required action key es = .ok v ↔ field? key es = some v := by
  unfold required
  cases field? key es <;> simp

/-! ### Slots of values -/

/-- The number that stands for an undefined slot is nine billion. -/
theorem undefinedValue_eq : (undefinedValue : Float) = 9e9 := by decide +kernel

/-- A slot holds a value that does not stand for an undefined one, or none. -/
theorem bind_slotOf_eq_self {s : Option Float} :
    s.bind slotOf = s ↔ ∀ x, s = some x → (x == 9e9) = false := by
  rw [← undefinedValue_eq]
  cases s with
  | none => simp
  | some x =>
    change slotOf x = some x ↔ _
    unfold slotOf
    change (if (x == undefinedValue) = true then none else some x) = some x ↔ _
    split_ifs with h <;> simp [h]

namespace ExternalJoints

/-- The slot of nothing is undefined. That of any other value is what the value says as a number. -/
theorem slotOfValue_eq_ok {v : Value} {s : Option Float} :
    slotOfValue v = .ok s ↔ v = .null ∧ s = none ∨ ∃ x, v.number = .ok x ∧ slotOf x = s := by
  unfold slotOfValue
  split
  · have hnumber : Value.null.number = .error .wrongType := rfl
    simp [hnumber, eq_comm]
  · rename_i hnull
    have hv : v ≠ .null := hnull
    simp [hv, Outcome.map_eq_ok]

/-- A slot that is read is settled. -/
theorem bind_slotOf_of_slotOfValue {v : Value} {s : Option Float} (h : slotOfValue v = .ok s) :
    s.bind slotOf = s := by
  obtain ⟨-, rfl⟩ | ⟨x, -, rfl⟩ := slotOfValue_eq_ok.mp h
  · rfl
  · exact bind_slotOf_bind_slotOf (some x)

/-- Slots without the number for undefined are kept as they are. -/
theorem ofSlots_of_settled {slots : Slots Float} (h : ∀ s ∈ slots.toList, s.bind slotOf = s)
    (name : Value) (storage : Storage) : ofSlots slots name storage = ⟨slots, name, storage, h⟩ :=
  ofSlots_slots ⟨slots, name, storage, h⟩

/-- The slots that values make: one for each, at most six, and undefined ones behind them. -/
def Holds (values : Value) (ss : List (Option Float)) : Prop :=
  ∃ vs xs, values.parts = .ok vs ∧ vs.mapM slotOfValue = .ok xs ∧ xs.length ≤ 6 ∧
    ss = xs ++ List.replicate (6 - xs.length) none

/-- Items that do not fill six places are followed by the default. -/
theorem toList_fillSix {α : Type} (default : α) {xs : List α} (h : xs.length ≤ 6) :
    (fillSix default xs).toList = xs ++ List.replicate (6 - xs.length) default := by
  apply List.ext_getElem
  · simp only [Vector.length_toList, List.length_append, List.length_replicate]
    omega
  · intro i hi _
    rw [Vector.length_toList] at hi
    by_cases hin : i < xs.length
    · simp [fillSix, hin]
    · simp [fillSix, hin, List.getElem_append_right (Nat.not_lt.mp hin)]

/-- Slots that are read are settled. -/
theorem settled_of_mapM {vs : List Value} {xs : List (Option Float)}
    (h : vs.mapM slotOfValue = .ok xs) : ∀ s ∈ xs, s.bind slotOf = s := by
  induction vs generalizing xs with
  | nil =>
    obtain rfl := Outcome.pure_eq_ok.mp h
    exact nofun
  | cons v vs ih =>
    rw [List.mapM_cons] at h
    obtain ⟨s, hs, h⟩ := Outcome.bind_eq_ok.mp h
    obtain ⟨rest, hrest, h⟩ := Outcome.bind_eq_ok.mp h
    obtain rfl := Outcome.pure_eq_ok.mp h
    exact List.forall_mem_cons.mpr ⟨bind_slotOf_of_slotOfValue hs, ih hrest⟩

/-- Settled slots with empty ones behind them are settled. -/
theorem settled_append_replicate {xs : List (Option Float)} (h : ∀ s ∈ xs, s.bind slotOf = s)
    (n : Nat) : ∀ s ∈ xs ++ List.replicate n none, s.bind slotOf = s := by
  intro s hs
  obtain hs | hs := List.mem_append.mp hs
  · exact h s hs
  · rw [List.eq_of_mem_replicate hs]
    rfl

/-- External joints are made of at most six values that are read as slots, and of a storage. -/
theorem make_eq_ok {values name storage : Value} {p : ExternalJoints} :
    make values name storage = .ok p ↔
      ∃ vs xs c, values.parts = .ok vs ∧ vs.mapM slotOfValue = .ok xs ∧ xs.length ≤ 6 ∧
        Storage.ofValue storage = .ok c ∧ ofSlots (fillSix none xs) name c = p := by
  unfold make
  constructor
  · intro h
    obtain ⟨vs, hvs, h⟩ := Outcome.bind_eq_ok.mp h
    obtain ⟨xs, hxs, h⟩ := Outcome.bind_eq_ok.mp h
    split_ifs at h with hlength
    obtain ⟨c, hc, h⟩ := Outcome.bind_eq_ok.mp h
    exact ⟨vs, xs, c, hvs, hxs, by omega, hc, Outcome.pure_eq_ok.mp h⟩
  · rintro ⟨vs, xs, c, hvs, hxs, hlength, hc, rfl⟩
    rw [hvs, Outcome.ok_bind, hxs, Outcome.ok_bind, if_neg (by omega), hc]
    rfl

/-- A position is made exactly of values that make slots and of a storage class. -/
theorem make_slots {values name storage : Value} {ss : List (Option Float)} :
    (∃ p, make values name storage = .ok p ∧ p.slots.toList = ss) ↔
      Holds values ss ∧ ∃ c, Storage.ofValue storage = .ok c := by
  have hslots {vs : List Value} {xs : List (Option Float)} (hxs : vs.mapM slotOfValue = .ok xs)
      (hlength : xs.length ≤ 6) (c : Storage) :
      (ofSlots (fillSix none xs) name c).slots.toList =
        xs ++ List.replicate (6 - xs.length) none := by
    have hlist := toList_fillSix none hlength
    have hsettled := settled_append_replicate (settled_of_mapM hxs) (6 - xs.length)
    rw [← hlist] at hsettled ⊢
    rw [ofSlots_of_settled hsettled]
  constructor
  · rintro ⟨p, h, rfl⟩
    obtain ⟨vs, xs, c, hvs, hxs, hlength, hc, rfl⟩ := make_eq_ok.mp h
    exact ⟨⟨vs, xs, hvs, hxs, hlength, hslots hxs hlength c⟩, c, hc⟩
  · rintro ⟨⟨vs, xs, hvs, hxs, hlength, rfl⟩, c, hc⟩
    exact ⟨_, make_eq_ok.mpr ⟨vs, xs, c, hvs, hxs, hlength, hc, rfl⟩, hslots hxs hlength c⟩

/-- A slot is assigned exactly at an index of six places and with the slot of a value. -/
theorem set_slots {p : ExternalJoints} {index value : Value} {ss : List (Option Float)} :
    (∃ q, p.set index value = .ok q ∧ q.slots.toList = ss) ↔
      ∃ i s, placeOf index = .ok i ∧ slotOfValue value = .ok s ∧ ss = p.slots.toList.set i s := by
  have hslots {i : Fin 6} {s : Option Float} (hs : slotOfValue value = .ok s) :
      (ofSlots (p.slots.set i s) p.name p.storage).slots.toList = p.slots.toList.set i s := by
    have hsettled : ∀ t ∈ (p.slots.set i s).toList, t.bind slotOf = t := by
      intro t ht
      rw [Vector.toList_set] at ht
      obtain ht | rfl := List.mem_or_eq_of_mem_set ht
      · exact p.settled t ht
      · exact bind_slotOf_of_slotOfValue hs
    rw [ofSlots_of_settled hsettled, Vector.toList_set]
  constructor
  · rintro ⟨q, h, rfl⟩
    obtain ⟨s, hs, h⟩ := Outcome.bind_eq_ok.mp h
    obtain ⟨i, hi, h⟩ := Outcome.bind_eq_ok.mp h
    obtain rfl := Outcome.pure_eq_ok.mp h
    exact ⟨i, s, hi, hs, hslots hs⟩
  · rintro ⟨i, s, hi, hs, rfl⟩
    refine ⟨ofSlots (p.slots.set i s) p.name p.storage, ?_, hslots hs⟩
    unfold set
    rw [hs, Outcome.ok_bind, hi]
    rfl

/-- A position is read exactly of a record with a version, with values that make slots and with a
storage class. -/
theorem ofRecord_slots {record : Value} {ss : List (Option Float)} :
    (∃ p, ofRecord record = .ok p ∧ p.slots.toList = ss) ↔
      ∃ es version values c, record.entries = .ok es ∧ Record.version tag es = .ok version ∧
        field? "values" es = some values ∧ Holds values ss ∧
        Storage.ofValue (fieldD "variable_type" es (.text "VAR")) = .ok c := by
  constructor
  · rintro ⟨p, h, hp⟩
    obtain ⟨es, hes, h⟩ := Outcome.bind_eq_ok.mp h
    obtain ⟨version, hversion, h⟩ := Outcome.bind_eq_ok.mp h
    obtain ⟨values, hvalues, h⟩ := Outcome.bind_eq_ok.mp h
    obtain ⟨hholds, c, hc⟩ := make_slots.mp ⟨p, h, hp⟩
    refine ⟨es, version, values, c, hes, hversion, ?_, hholds, hc⟩
    exact Record.required_eq_ok.mp hvalues
  · rintro ⟨es, version, values, c, hes, hversion, hvalues, hholds, hc⟩
    obtain ⟨p, h, hp⟩ := make_slots.mpr ⟨hholds, c, hc⟩
    refine ⟨p, ?_, hp⟩
    unfold ofRecord
    rw [hes, Outcome.ok_bind, hversion, Outcome.ok_bind, Record.required_eq_ok.mpr hvalues]
    exact h

/-- Slots that are given out with any value that stands for undefined are taken in again. -/
theorem make_valuesValue {undefined storage : Value} {c : Storage} (p : ExternalJoints)
    (name : Value) (hundefined : slotOfValue undefined = .ok none)
    (hc : Storage.ofValue storage = .ok c) :
    make (p.valuesValue undefined) name storage = .ok ⟨p.slots, name, c, p.settled⟩ := by
  rw [← ofSlots_of_settled p.settled name c]
  refine make_eq_ok.mpr ⟨_, _, c, rfl, mapM_slotOfValue hundefined p.settled, ?_, hc, ?_⟩
  · rw [Vector.length_toList]
  · rw [fillSix_toList]

end ExternalJoints

/-! ### Operations -/

/-- What is done to the position that a program holds: another one is put in its place, a slot is
assigned, or the position is copied. -/
inductive SlotOperation where
  | construct (values name storage : Value)
  | assign (index value : Value)
  | duplicate
  | decode (record : Value)

/-- A position that is kept when a change of it fails. -/
abbrev Held := ExceptT Fault (StateM ExternalJoints)

namespace SlotOperation

open ExternalJoints (Holds make make_slots make_valuesValue set_slots slotOfValue tag)

/-- The position that an operation makes. -/
def result (p : ExternalJoints) : SlotOperation → Outcome ExternalJoints
  | construct values name storage => make values name storage
  | assign index value => p.set index value
  | duplicate => make (p.valuesValue .null) p.name (.text p.storage.word)
  | decode record => ExternalJoints.ofRecord record

/-- An operation on the position that is held. -/
def perform (o : SlotOperation) : Held Unit := do
  set (← o.result (← get))

/-- The operations that succeed, with the slots before and after. -/
inductive Effect : SlotOperation → List (Option Float) → List (Option Float) → Prop where
  | construct {values name storage : Value} {before after : List (Option Float)} {c : Storage} :
    Holds values after → Storage.ofValue storage = .ok c →
    Effect (construct values name storage) before after
  | assign {a : Atom} {n : Int} {value : Value} {before : List (Option Float)} {s : Option Float} :
    a.whole? = some n → -6 ≤ n → n < 6 → slotOfValue value = .ok s →
    Effect (assign (.atom a) value) before (before.set (n % 6).toNat s)
  | duplicate {before : List (Option Float)} : Effect duplicate before before
  | decode {record values : Value} {es : List (Atom × Value)} {version : Int} {c : Storage}
      {before after : List (Option Float)} :
    record.entries = .ok es → Record.version tag es = .ok version →
    field? "values" es = some values → Holds values after →
    Storage.ofValue (fieldD "variable_type" es (.text "VAR")) = .ok c →
    Effect (decode record) before after

/-- An operation gives its result, or fails and leaves the joints as they are. -/
theorem perform_run (o : SlotOperation) (p : ExternalJoints) :
    o.perform.run p = match o.result p with
      | .ok q => (.ok (), q)
      | .error f => (.error f, p) := by
  have hget : o.perform.run p = ((liftM (o.result p) : Held ExternalJoints) >>= set).run p := rfl
  rw [hget, Outcome.run_bind]
  cases o.result p <;> rfl

/-- A copy is the position again. -/
theorem result_duplicate (p : ExternalJoints) : duplicate.result p = .ok p :=
  p.make_valuesValue p.name rfl (Storage.ofValue_word p.storage)

/-- Programs copy actions in the same way. -/
theorem duplicate_externalJoints (p : ExternalJoints) :
    (Action.externalJoints p).duplicate = Action.externalJoints <$> duplicate.result p := by
  rw [result_duplicate]
  rfl

/-- An operation succeeds exactly if it has an effect, which is what it makes of the slots. -/
theorem result_slots {o : SlotOperation} {p : ExternalJoints} {ss : List (Option Float)} :
    (∃ q, o.result p = .ok q ∧ q.slots.toList = ss) ↔ o.Effect p.slots.toList ss := by
  cases o with
  | construct values name storage =>
    rw [result, make_slots]
    constructor
    · rintro ⟨hholds, c, hc⟩
      exact .construct hholds hc
    · intro h
      cases h with
      | construct hholds hc => exact ⟨hholds, _, hc⟩
  | assign index value =>
    rw [result, set_slots]
    constructor
    · rintro ⟨i, s, hi, hs, rfl⟩
      obtain ⟨a, n, rfl, ha, hlow, hhigh, hn⟩ := placeOf_eq_ok.mp hi
      have hplace : (i : Nat) = (n % 6).toNat := by omega
      rw [hplace]
      exact .assign ha hlow hhigh hs
    · intro h
      cases h with
      | assign ha hlow hhigh hs =>
        rename_i a n s
        have hplace : (n % 6).toNat < 6 := by omega
        have hn : n % 6 = ((⟨(n % 6).toNat, hplace⟩ : Fin 6) : Int) := by simp; omega
        exact ⟨_, s, placeOf_eq_ok.mpr ⟨a, n, rfl, ha, hlow, hhigh, hn⟩, hs, rfl⟩
  | duplicate =>
    rw [result_duplicate]
    constructor
    · rintro ⟨_, ⟨⟩, rfl⟩
      exact .duplicate
    · rintro ⟨⟩
      exact ⟨p, rfl, rfl⟩
  | decode record =>
    rw [result, ExternalJoints.ofRecord_slots]
    constructor
    · rintro ⟨es, version, values, c, hes, hversion, hvalues, hholds, hc⟩
      exact .decode hes hversion hvalues hholds hc
    · intro h
      cases h with
      | decode hes hversion hvalues hholds hc =>
        exact ⟨_, _, _, _, hes, hversion, hvalues, hholds, hc⟩

/-- The position after some operations. -/
def after (p : ExternalJoints) (os : List SlotOperation) : ExternalJoints :=
  os.foldl (fun p o => (o.perform.run p).2) p

/-- The slots after some operations: each has its effect, or leaves the slots if it has none. -/
inductive Reaches (start : List (Option Float)) :
    List SlotOperation → List (Option Float) → Prop where
  | start : Reaches start [] start
  | succeeds {os : List SlotOperation} {o : SlotOperation} {ss next : List (Option Float)} :
    Reaches start os ss → o.Effect ss next → Reaches start (os ++ [o]) next
  | fails {os : List SlotOperation} {o : SlotOperation} {ss : List (Option Float)} :
    Reaches start os ss → (∀ next, ¬o.Effect ss next) → Reaches start (os ++ [o]) ss

/-- Operations reach the slots of the joints that they lead to. -/
theorem reaches_after (p : ExternalJoints) (os : List SlotOperation) :
    Reaches p.slots.toList os (after p os).slots.toList := by
  induction os using List.reverseRecOn with
  | nil => exact .start
  | append_singleton os o ih =>
    have hlast : after p (os ++ [o]) = (o.perform.run (after p os)).2 := by simp [after]
    rw [hlast, perform_run]
    cases hresult : o.result (after p os) with
    | ok q => exact ih.succeeds (result_slots.mp ⟨q, hresult, rfl⟩)
    | error f =>
      refine ih.fails fun next hnext => ?_
      obtain ⟨q, hq, -⟩ := result_slots.mpr hnext
      rw [hresult] at hq
      cases hq

/-- Six slots without the number for undefined among the values. -/
structure Apart (ss : List (Option Float)) : Prop where
  length : ss.length = 6
  ne_undefined : ∀ x, some x ∈ ss → (x == 9e9) = false

/-- Slots that are apart are six settled ones. -/
theorem apart_iff {ss : List (Option Float)} :
    Apart ss ↔ ss.length = 6 ∧ ∀ s ∈ ss, s.bind slotOf = s := by
  constructor
  · rintro ⟨hlength, h⟩
    exact ⟨hlength, fun s hs => bind_slotOf_eq_self.mpr fun x hx => h x (hx ▸ hs)⟩
  · rintro ⟨hlength, h⟩
    exact ⟨hlength, fun x hx => bind_slotOf_eq_self.mp (h _ hx) x rfl⟩

/-- Slots that hold some values are apart. -/
theorem apart_of_holds {values : Value} {ss : List (Option Float)} (h : Holds values ss) :
    Apart ss := by
  obtain ⟨vs, xs, -, hxs, hlength, rfl⟩ := h
  refine apart_iff.mpr ⟨?_, ExternalJoints.settled_append_replicate
    (ExternalJoints.settled_of_mapM hxs) _⟩
  simp only [List.length_append, List.length_replicate]
  omega

/-- No effect makes a value of what stands for undefined. -/
theorem Effect.apart {o : SlotOperation} {before after : List (Option Float)}
    (h : o.Effect before after) (hbefore : Apart before) : Apart after := by
  cases h with
  | construct hholds _ => exact apart_of_holds hholds
  | assign _ _ _ hs =>
    rw [apart_iff] at hbefore ⊢
    refine ⟨by rw [List.length_set, hbefore.1], fun t ht => ?_⟩
    obtain ht | rfl := List.mem_or_eq_of_mem_set ht
    · exact hbefore.2 t ht
    · exact ExternalJoints.bind_slotOf_of_slotOfValue hs
  | duplicate => exact hbefore
  | decode _ _ _ hholds _ => exact apart_of_holds hholds

/-- Slots that operations reach stay apart. -/
theorem Reaches.apart {start ss : List (Option Float)} {os : List SlotOperation}
    (h : Reaches start os ss) (hstart : Apart start) : Apart ss := by
  induction h with
  | start => exact hstart
  | succeeds _ heffect ih => exact heffect.apart ih
  | fails _ _ ih => exact ih

end SlotOperation

/-! ### Program text -/

namespace Number

/-- A literal without a sign is made of digits and points. -/
theorem isDigit_or_point_of_isUnsigned {cs : List Char} (h : isUnsigned cs = true) :
    ∀ c ∈ cs, c.isDigit = true ∨ c = '.' := by
  intro c hc
  rw [isUnsigned, Bool.and_eq_true] at h
  rw [← List.takeWhile_append_dropWhile (p := Char.isDigit) (l := cs), List.mem_append] at hc
  obtain hc | hc := hc
  · exact .inl ((isDigits_iff.mp h.1).2 c hc)
  · have hrest := h.2
    cases hdrop : cs.dropWhile Char.isDigit with
    | nil =>
      rw [hdrop] at hc
      cases hc
    | cons d ds =>
      rw [hdrop] at hc hrest
      rw [Bool.and_eq_true, beq_iff_eq] at hrest
      obtain rfl | hc := List.mem_cons.mp hc
      · exact .inr hrest.1
      · exact .inl ((isDigits_iff.mp hrest.2).2 c hc)

/-- A decimal literal is made of digits, a point and a sign. -/
theorem isDigit_or_of_isDecimal {s : String} (h : isDecimal s = true) :
    ∀ c ∈ s.toList, c.isDigit = true ∨ c = '.' ∨ c = '-' := by
  unfold isDecimal at h
  split at h
  · rename_i cs hcs
    rw [hcs, List.forall_mem_cons]
    exact ⟨.inr (.inr rfl), fun c hc => (isDigit_or_point_of_isUnsigned h c hc).imp_right .inl⟩
  · exact fun c hc => (isDigit_or_point_of_isUnsigned h c hc).imp_right .inl

/-- No number is written with a comma. -/
theorem comma_notMem_render (places : Nat) (x : Float) : ',' ∉ (render places x).toList := by
  by_cases h : x.isFinite = true
  · intro hmem
    obtain hdigit | hpoint | hsign := isDigit_or_of_isDecimal (isDecimal_render h places) _ hmem
    · cases hdigit
    · cases hpoint
    · cases hsign
  · have hmem := render_mem_of_not_isFinite h places
    generalize render places x = text at hmem
    revert text
    decide

/-- No number is written as an undefined slot is. -/
theorem render_ne_undefinedText (places : Nat) (x : Float) : render places x ≠ undefinedText := by
  intro h
  by_cases hfinite : x.isFinite = true
  · have hdecimal := isDecimal_render hfinite places
    rw [h] at hdecimal
    cases hdecimal
  · have hmem := render_mem_of_not_isFinite hfinite places
    rw [h] at hmem
    revert hmem
    decide

end Number

namespace ExternalJoints

/-- A slot in program text. -/
def slotText (s : Option Float) : String :=
  s.elim undefinedText (Number.render Number.positionPlaces)

/-- The text of a slot with a value is that of the value. -/
theorem slotText_some (x : Float) :
    slotText (some x) = Number.render Number.positionPlaces x := by
  rw [slotText, Option.elim_some]

/-- No comma stands in the text of a slot. -/
theorem comma_notMem_slotText (s : Option Float) : ',' ∉ (slotText s).toList := by
  cases s with
  | none => decide
  | some x =>
    rw [slotText_some]
    exact Number.comma_notMem_render _ x

/-- The text of a slot tells whether it is undefined. -/
theorem slotText_eq_undefinedText {s : Option Float} : slotText s = undefinedText ↔ s = none := by
  cases s with
  | none => exact iff_of_true rfl rfl
  | some x =>
    rw [slotText_some]
    exact iff_of_false (Number.render_ne_undefinedText _ x) (Option.some_ne_none x)

/-- The program text of a position is in brackets, and commas separate the texts of its slots. -/
theorem exists_valueText_eq (p : ExternalJoints) :
    ∃ body, p.valueText = "[" ++ body ++ "]" ∧ pieces ", " body = p.slots.toList.map slotText := by
  refine ⟨_, rfl, pieces_intercalate rfl ?_ ?_⟩
  · simp [← List.length_eq_zero_iff]
  · exact List.forall_mem_map.mpr fun s _ => comma_notMem_slotText s

/-- What is written of a position tells its undefined slots from its values, in data and in program
text. -/
structure WrittenApart (p : ExternalJoints) : Prop where
  data : ∃ q, make p.storedValues (.text "") (.text "VAR") = .ok q ∧ q.slots = p.slots
  text : ∃ body, p.valueText = "[" ++ body ++ "]" ∧ (pieces ", " body).length = 6 ∧
    ∀ i : Fin 6, ∃ field, (pieces ", " body)[i.val]? = some field ∧ ',' ∉ field.toList ∧
      (field = "9E9" ↔ p.slots.get i = none) ∧
      ∀ x, p.slots.get i = some x → field = Number.render Number.positionPlaces x

/-- The texts of joints are written apart. -/
theorem writtenApart (p : ExternalJoints) : p.WrittenApart where
  data :=
    ⟨_, p.make_valuesValue _ slotOfValue_undefinedValue (Storage.ofValue_word .var), rfl⟩
  text := by
    obtain ⟨body, hbody, hpieces⟩ := p.exists_valueText_eq
    refine ⟨body, hbody, by simp [hpieces], fun i => ⟨slotText (p.slots.get i), ?_, ?_, ?_, ?_⟩⟩
    · simp [hpieces, Vector.get]
    · exact comma_notMem_slotText _
    · exact slotText_eq_undefinedText
    · intro x hx
      rw [hx, slotText_some]

open SlotOperation (Reaches Apart after) in
/-- Whatever is done to a position, it has six slots, and none holds the number for undefined. Each
operation has its effect on the slots, and one that fails leaves them. What is written of the
position has an undefined slot exactly where it has one. -/
theorem slots_stay_apart (start : ExternalJoints) (os : List SlotOperation) :
    Reaches start.slots.toList os (after start os).slots.toList ∧
    Apart (after start os).slots.toList ∧
    (∀ o f q, (SlotOperation.perform o).run (after start os) = (.error f, q) →
      q.slots = (after start os).slots) ∧
    (after start os).WrittenApart := by
  have hreaches := SlotOperation.reaches_after start os
  have hstart : Apart start.slots.toList :=
    SlotOperation.apart_iff.mpr ⟨Vector.length_toList, start.settled⟩
  refine ⟨hreaches, hreaches.apart hstart, fun o f q h => ?_, writtenApart _⟩
  rw [SlotOperation.perform_run] at h
  cases hresult : o.result (after start os) with
  | ok p =>
    rw [hresult] at h
    cases h
  | error g =>
    rw [hresult] at h
    exact congrArg slots (Prod.ext_iff.mp h).2.symm

-- The second operation reads the number for undefined in a text, and the third one fails.
example : (SlotOperation.after undefined
    [.construct (.list [.float 1.5, .int 2]) (.text "") (.int 0),
      .assign (.int 0) (.text "9e9"), .assign (.int 6) (.int 3), .assign (.int (-1)) (.int 4)]
    ).valueText = "[9E9, 2, 9E9, 9E9, 9E9, 4]" := by
  decide +kernel

end ExternalJoints

end RobotProgram
