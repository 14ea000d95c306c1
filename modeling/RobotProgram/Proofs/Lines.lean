import RobotProgram.Proofs.Declarations

/-!
# Declaration lines

Every symbol of a program has one line, and the line declares it: `declaration_lines` says that the
lines of a returned program stand beside its symbols, and that each line has the storage class, the
data type and the value of the thing that the first action to register the name declares.

What an action writes does not depend on the buffers. So the form of a line is a property of the
offers of an action (`Writes`, shown for each of them in `writes_offers`), and that the line of a
symbol is the one of its first offer is a property of the buffers that accept offers in order.
-/

namespace RobotProgram

/-- The value of a work object in program text. -/
def WorkObject.valueText (w : WorkObject) : String :=
  "[FALSE, TRUE, \"\", " ++ w.userFrame.poseText ++ ", " ++ w.objectFrame.poseText ++ "]"

/-- An item of a flattened list comes from one of the lists, behind all of those before it. -/
theorem exists_source_of_flatMap {α β : Type} {f : α → List β} {xs : List α} {ys zs : List β}
    {o : β} (h : xs.flatMap f = ys ++ o :: zs) :
    ∃ before a after own rest, xs = before ++ a :: after ∧ f a = own ++ o :: rest ∧
      ys = before.flatMap f ++ own := by
  induction xs generalizing ys with
  | nil => simp at h
  | cons x xs ih =>
    rw [List.flatMap_cons, List.append_eq_append_iff] at h
    -- The item stands in the lists behind the first, at their head, or in the first.
    obtain ⟨ys, rfl, h⟩ | ⟨rest, hfirst, h⟩ := h
    · obtain ⟨before, a, after, own, rest, rfl, hown, rfl⟩ := ih h
      exact ⟨x :: before, a, after, own, rest, rfl, hown, by simp⟩
    · obtain ⟨rfl, hrest⟩ | ⟨rest, rfl, -⟩ := List.cons_eq_append_iff.mp h
      · have hhead : xs.flatMap f = [] ++ o :: zs := hrest
        obtain ⟨before, a, after, own, rest, rfl, hown, hnil⟩ := ih hhead
        rw [List.append_nil] at hfirst
        exact ⟨x :: before, a, after, own, rest, rfl, hown, by simp [← hfirst, ← hnil]⟩
      · exact ⟨[], x, xs, ys, rest, rfl, hfirst, by simp⟩

/-- The declaration of a work object that the controller does not know. -/
theorem WorkObject.declaration_of_own (w : WorkObject) (hdefault : ¬w.isDefault = true)
    (hname : w.name.truthy = true) :
    w.declaration = "TASK PERS" ++ " " ++ "wobjdata" ++ " " ++ w.name.toText ++ " := " ++
      w.valueText ++ ";" := by
  have hsplit (name user object : String) :
      "TASK PERS wobjdata " ++ name ++ " := [FALSE, TRUE, \"\", " ++ user ++ ", " ++ object ++
          "];" =
        "TASK PERS" ++ " " ++ "wobjdata" ++ " " ++ name ++ " := " ++
          ("[FALSE, TRUE, \"\", " ++ user ++ ", " ++ object ++ "]") ++ ";" := by
    have hopening : "TASK PERS wobjdata " = "TASK PERS" ++ " " ++ "wobjdata" ++ " " := rfl
    have hvalue : " := [FALSE, TRUE, \"\", " = " := " ++ "[FALSE, TRUE, \"\", " := rfl
    have hclosing : "];" = "]" ++ ";" := rfl
    rw [hopening, hvalue, hclosing]
    simp only [String.append_assoc]
  have hown : (w.isDefault || !w.isValid) = false := by simp [hdefault, isValid, hname]
  unfold declaration valueText
  rw [hown, if_neg Bool.false_ne_true]
  exact hsplit _ _ _

namespace Program

namespace Declared

/-- The storage class of a declared thing in program text. -/
def storageText : Declared → String
  | .action (.robotJoints p) => p.storage.word
  | .action (.externalJoints p) => p.storage.word
  | .action (.jointTarget t) => t.storage.word
  | .action (.robotTarget t) => t.storage.word
  | .workObject _ => "TASK PERS"
  | _ => "VAR"

/-- The data type of a declared thing; actions that are never declared have none. -/
def dataType : Declared → String
  | .action (.robotJoints _) => "robjoint"
  | .action (.externalJoints _) => "extjoint"
  | .action (.jointTarget _) => "jointtarget"
  | .action (.robotTarget _) => "robtarget"
  | .action (.speed _) => "speeddata"
  | .workObject _ => "wobjdata"
  | _ => ""

/-- The line that declares a thing under a name with a value. -/
def line (d : Declared) (name : Value) (value : String) : String :=
  d.storageText ++ " " ++ d.dataType ++ " " ++ name.toText ++ " := " ++ value ++ ";"

end Declared

namespace Buffers

/-! ### The table of accepted offers -/

/-- Having the same table is symmetric. -/
theorem SameTable.symm {b b' : Buffers} (h : b.SameTable b') : b'.SameTable b :=
  ⟨h.1.symm, h.2.symm⟩

/-- Having the same table is transitive. -/
theorem SameTable.trans {b b' b'' : Buffers} (h : b.SameTable b') (h' : b'.SameTable b'') :
    b.SameTable b'' :=
  ⟨h.1.trans h'.1, h.2.trans h'.2⟩

/-- A name is taken when one of the symbols is found under it. -/
theorem declares_eq_false {b : Buffers} {key : Atom} :
    b.declares key = false ↔ ∀ s ∈ b.symbols, s.1.finds key = false := by
  simp [declares]

/-- No symbol is found under the name of a later one. -/
def Distinct (b : Buffers) : Prop := b.symbols.Pairwise fun s t => s.1.finds t.1 = false

/-- An offer keeps the names apart: it is only accepted under a name that is not taken. -/
theorem Distinct.accept {b : Buffers} (hb : b.Distinct) (o : Offer) : (b.accept o).Distinct := by
  unfold Distinct at hb ⊢
  obtain ⟨hsymbols, -⟩ | ⟨key, d, line, problems, -, hfree, haccept⟩ := b.accept_cases o
  · rwa [hsymbols]
  · have hlast : ∀ s ∈ b.symbols, s.1.finds key = false := declares_eq_false.mp hfree
    rw [haccept]
    refine List.pairwise_append.mpr ⟨hb, List.pairwise_singleton _ _, fun s hs t ht => ?_⟩
    obtain rfl := List.mem_singleton.mp ht
    exact hlast s hs

/-- Offers in a row keep the names apart. -/
theorem Distinct.acceptAll {b : Buffers} (hb : b.Distinct) (os : List Offer) :
    (b.acceptAll os).Distinct := by
  induction os generalizing b with
  | nil => exact hb
  | cons o os ih => exact ih (hb.accept o)

/-- Lines are added at the end. -/
theorem declarations_prefix_acceptAll (b : Buffers) (os : List Offer) :
    b.declarations <+: (b.acceptAll os).declarations := by
  induction os generalizing b with
  | nil => exact List.prefix_rfl
  | cons o os ih =>
    refine List.IsPrefix.trans ?_ (ih (b.accept o))
    obtain ⟨-, hlines⟩ | ⟨key, d, line, problems, -, -, haccept⟩ := b.accept_cases o
    · exact ⟨[], by rw [List.append_nil, hlines]⟩
    · rw [haccept]
      by_cases hline : line.isEmpty
      · exact ⟨[], by simp [declare, hline]⟩
      · exact ⟨[line], by simp [declare, hline]⟩

/-- A symbol comes from the first offer that is found under its name, and stands beside the line of
that offer. -/
theorem exists_first_offer {os : List Offer} (hos : ∀ o ∈ os, o.Worded) {j : Nat} {key : Atom}
    {d : Declared} (h : (Buffers.acceptAll {} os).symbols[j]? = some (key, d)) :
    ∃ before line problems after, os = before ++ .declare key d line problems :: after ∧
      (∀ o ∈ before, ∀ k, o.Declares k → k.finds key = false) ∧
      (Buffers.acceptAll {} os).declarations[j]? = some line := by
  have hempty : Distinct {} := List.Pairwise.nil
  have hdistinct := hempty.acceptAll os
  obtain ⟨before, line, problems, after, rfl, rfl⟩ := exists_offer_of_symbol h
  simp only [List.forall_mem_append, List.forall_mem_cons] at hos
  have haligned : (Buffers.acceptAll {} before).Aligned := Aligned.acceptAll rfl hos.1
  have hprefix := symbols_prefix_acceptAll (Buffers.acceptAll {} before)
    (.declare key d line problems :: after)
  have hoffered {o : Offer} {k : Atom} (ho : o ∈ before) (hk : o.Declares k) :
      (Buffers.acceptAll {} before).Holds k := holds_of_offered ho hk
  rw [acceptAll_append] at h hdistinct
  generalize hb : Buffers.acceptAll {} before = b at h hdistinct haligned hprefix hoffered
  -- No symbol that was there is found under the name, for it stands before it in the end.
  have hfree : b.declares key = false := by
    refine declares_eq_false.mpr fun s hs => ?_
    obtain ⟨i, hi, rfl⟩ := List.mem_iff_getElem.mp hs
    have hearly := List.prefix_iff_getElem?.mp hprefix i hi
    obtain ⟨hj, hlate⟩ := List.getElem?_eq_some_iff.mp h
    obtain ⟨hi', hearly⟩ := List.getElem?_eq_some_iff.mp hearly
    have hapart := List.pairwise_iff_getElem.mp hdistinct i b.symbols.length hi' hj hi
    rwa [hearly, hlate] at hapart
  refine ⟨before, line, problems, after, rfl, fun o ho k hk => ?_, ?_⟩
  · -- What was offered before is declared then, under its own name or an equal one.
    obtain ⟨s, hs, hfinds⟩ := hoffered ho hk
    have hs' : s.1.finds key = false := declares_eq_false.mp hfree s hs
    by_contra hk'
    rw [Atom.finds_trans hfinds (by simpa using hk')] at hs'
    cases hs'
  · -- The line is added behind those of the symbols that were there, and stays.
    have hline : line.isEmpty = false := hos.2.1
    have hadded : (b.accept (.declare key d line problems)).declarations =
        b.declarations ++ [line] := by
      simp [accept, hfree, declare, hline]
    have hkept := declarations_prefix_acceptAll (b.accept (.declare key d line problems)) after
    rw [hadded] at hkept
    have hplace := List.prefix_iff_getElem?.mp hkept b.declarations.length (by simp)
    rw [acceptAll_append, hb, acceptAll_cons, haligned, hplace]
    simp

end Buffers

namespace Generator

open Kinematics (Resolver Solution)

/-! ### What an action writes -/

/-- The value that an action writes in the declaration of a thing. A movement of a known type writes
a robot target with the external values of its solution; everything else has a value of its own. -/
def writtenValue [Resolver] (g : Generator) (a : Action) : Declared → Outcome String
  | .action (.robotJoints p) => .ok p.valueText
  | .action (.externalJoints p) => .ok p.valueText
  | .action (.jointTarget t) => t.valueText
  | .action (.speed s) => s.valueText
  | .workObject w => .ok w.valueText
  | .action (.robotTarget t) =>
    match a with
    | .movement m target =>
      match m.kind with
      | .known _ => do t.valueText (Movement.externalOf (← (m.solve target g.robot).outcome))
      | .other _ => t.ownValueText
    | _ => t.ownValueText
  | _ => .error .noSuchPart

/-- A declaration is made under a name that counts, and its line has the value that the action
writes; other offers are diagnostics. -/
def Writes [Resolver] (g : Generator) (a : Action) : Offer → Prop
  | .declare key d line _ => (Value.atom key).truthy = true ∧
    ∃ value, g.writtenValue a d = .ok value ∧ line = d.line (.atom key) value
  | .report _ => True
  | .instruct _ => False

/-- The line of a thing that needs a name and a value. -/
theorem exists_value_of_named {name : Value} (hname : name.truthy = true) {storage : Storage}
    {type line : String} {value : Outcome String}
    (h : (if name.truthy then declarationText storage type name <$> value else .ok "") =
      .ok line) :
    ∃ v, value = .ok v ∧
      line = storage.word ++ " " ++ type ++ " " ++ name.toText ++ " := " ++ v ++ ";" := by
  rw [if_pos hname] at h
  obtain ⟨v, hv, rfl⟩ := Outcome.map_eq_ok.mp h
  exact ⟨v, hv, if_pos hname⟩

section

variable [Resolver] {g : Generator} {a : Action}

/-- A declaration under a name is written if its line has the value of the thing. -/
theorem writes_offerAs {name : Value} {d : Declared} {line : String} {problems : List String}
    (h : name.truthy = true → ∃ value, g.writtenValue a d = .ok value ∧ line = d.line name value) :
    (offerAs name d line problems).Gives fun os => ∀ o ∈ os, g.Writes a o := by
  refine Outcome.Gives.bind fun key hkey => ?_
  refine Outcome.Gives.ok ?_
  obtain ⟨hname, rfl⟩ := symbolKey_eq_ok.mp hkey
  simpa [Writes, hname] using h hname

/-- Two outcomes together write what each of them does. -/
theorem writes_both {o p : Outcome (List Offer)} (ho : o.Gives fun os => ∀ o ∈ os, g.Writes a o)
    (hp : p.Gives fun os => ∀ o ∈ os, g.Writes a o) :
    (o.both p).Gives fun os => ∀ o ∈ os, g.Writes a o := by
  intro os h
  obtain ⟨xs, ys, hx, hy, rfl⟩ := Outcome.both_eq_ok.mp h
  exact List.forall_mem_append.mpr ⟨ho xs hx, hp ys hy⟩

/-- The offers of robot joints write their value. -/
theorem writes_robotJointsOffers (p : RobotJoints) :
    (robotJointsOffers p).Gives fun os => ∀ o ∈ os, g.Writes a o := by
  unfold robotJointsOffers
  by_cases hname : p.name.truthy
  · rw [if_pos hname]
    exact writes_offerAs fun _ => ⟨p.valueText, rfl, if_pos hname⟩
  · rw [if_neg hname]
    exact .ok (by simp)

/-- The offers of external joints write their value. -/
theorem writes_externalJointsOffers (p : ExternalJoints) :
    (externalJointsOffers p).Gives fun os => ∀ o ∈ os, g.Writes a o := by
  unfold externalJointsOffers
  by_cases hname : p.name.truthy
  · rw [if_pos hname]
    exact writes_offerAs fun _ => ⟨p.valueText, rfl, if_pos hname⟩
  · rw [if_neg hname]
    exact .ok (by simp)

/-- The offers of a speed write its values. -/
theorem writes_speedOffers (s : Speed) :
    (speedOffers s).Gives fun os => ∀ o ∈ os, g.Writes a o := by
  unfold speedOffers
  cases hpredefined : s.predefined.truthy with
  | true => exact .ok (by simp)
  | false =>
    refine Outcome.Gives.bind fun line hline => ?_
    refine writes_offerAs fun _ => ?_
    simp only [Speed.declaration, hpredefined, Bool.false_eq_true, if_false] at hline
    obtain ⟨value, hvalue, hline⟩ := Outcome.bind_eq_ok.mp hline
    refine ⟨value, hvalue, ?_⟩
    rw [← Outcome.pure_eq_ok.mp hline]
    simp [Declared.line, Declared.storageText, Declared.dataType, String.append_assoc]

/-- The offers of a work object write its frames. -/
theorem writes_workObjectOffers (w : WorkObject) :
    (workObjectOffers w).Gives fun os => ∀ o ∈ os, g.Writes a o := by
  unfold workObjectOffers
  by_cases hdefault : w.isDefault
  · rw [if_pos hdefault]
    exact .ok (by simp)
  · rw [if_neg hdefault]
    exact writes_offerAs fun hname => ⟨w.valueText, rfl, w.declaration_of_own hdefault hname⟩

/-- The offers of a robot target write its value, if the action that offers it does. -/
theorem writes_robotTargetOffers {t : RobotTarget}
    (ha : g.writtenValue a (.action (.robotTarget t)) = t.ownValueText) :
    (robotTargetOffers t).Gives fun os => ∀ o ∈ os, g.Writes a o := by
  unfold robotTargetOffers
  by_cases hname : t.name.truthy
  · rw [if_pos hname]
    refine Outcome.Gives.bind fun line hline => ?_
    refine writes_offerAs fun _ => ?_
    rw [ha]
    exact exists_value_of_named hname hline
  · rw [if_neg hname]
    exact .ok (by simp)

/-- The offers of a joint target and of its parts write their values. -/
theorem writes_jointTargetOffers (t : JointTarget) :
    (g.jointTargetOffers t).Gives fun os => ∀ o ∈ os, g.Writes a o := by
  refine writes_both (writes_both ?_ ?_) ?_
  · refine Outcome.Gives.bind fun p _ => ?_
    exact writes_robotJointsOffers p
  · refine Outcome.Gives.bind fun p _ => ?_
    exact writes_externalJointsOffers p
  · unfold ownJointOffers
    by_cases hname : t.name.truthy
    · rw [if_pos hname]
      refine Outcome.Gives.bind fun line hline => ?_
      refine Outcome.Gives.bind fun messages _ => ?_
      exact writes_offerAs fun _ => exists_value_of_named hname hline
    · rw [if_neg hname]
      exact Outcome.Gives.ok (by simp)

/-- The offers of a movement's parts write their values. -/
theorem writes_partOffers (m : Movement) :
    (partOffers m).Gives fun os => ∀ o ∈ os, g.Writes a o := by
  refine writes_both ?_ (writes_workObjectOffers m.workObject)
  refine Outcome.Gives.bind fun s _ => ?_
  exact writes_speedOffers s

/-- The offers of a joint target that is written in place are diagnostics. -/
theorem writes_inlineJointOffers (t : JointTarget) :
    (g.inlineJointOffers t).Gives fun os => ∀ o ∈ os, g.Writes a o := by
  unfold inlineJointOffers
  cases t.name.truthy with
  | true => exact .ok (by simp)
  | false =>
    refine Outcome.Gives.bind fun messages _ => ?_
    exact Outcome.Gives.ok (by simp [Writes])

/-- A movement of a known type writes its destination with the values of its solution. -/
theorem writes_solutionOffers {m : Movement} {kind : MoveKind} (hkind : m.kind = .known kind)
    (t : RobotTarget) :
    (g.solutionOffers m kind (some (.robotTarget t))).Gives fun os =>
      ∀ o ∈ os, g.Writes (.movement m (some (.robotTarget t))) o := by
  refine Outcome.Gives.bind fun solution hsolution => ?_
  have hjoint := destinationName_truthy .absoluteJoint t
  simp only [destinationOffers]
  by_cases hname : t.name.truthy
  · rw [if_pos hname]
    rw [hname] at hjoint
    refine .bind fun line hline => writes_offerAs fun _ => ?_
    cases kind with
    | absoluteJoint => exact exists_value_of_named hjoint hline
    | linear =>
      simp only [destination, writtenValue, hkind, hsolution]
      exact exists_value_of_named hname hline
    | joint =>
      simp only [destination, writtenValue, hkind, hsolution]
      exact exists_value_of_named hname hline
  · rw [if_neg hname]
    exact .ok (by simp [Writes])

/-- A valid action writes what it offers. -/
theorem writes_offers (hvalid : a.isValid = .ok true) :
    (g.offers a).Gives fun os => ∀ o ∈ os, g.Writes a o := by
  cases a with
  | robotJoints p => exact writes_robotJointsOffers p
  | externalJoints p => exact writes_externalJointsOffers p
  | jointTarget t => exact writes_jointTargetOffers t
  | robotTarget t => exact writes_robotTargetOffers rfl
  | speed s => exact writes_speedOffers s
  | wait w => exact .ok (by simp)
  | output o => exact .ok (by simp)
  | movement m target =>
    obtain ⟨t, rfl⟩ | ⟨t, rfl⟩ := Action.target_of_valid hvalid
    · rw [offers]
      exact writes_both (writes_partOffers m)
        (writes_both (writes_jointTargetOffers t) (writes_inlineJointOffers t))
    · rw [offers_movement g m (by simp)]
      refine writes_both (writes_partOffers m) ?_
      cases hkind : m.kind with
      | known kind => exact writes_solutionOffers hkind t
      | other v =>
        -- The target is declared as if it stood alone.
        refine writes_robotTargetOffers ?_
        simp only [writtenValue, hkind]

/-- All that an action declares is written with the value that the action writes. -/
theorem writes_declared (a : Action) : ∀ o ∈ g.declared a, g.Writes a o := by
  unfold declared
  by_cases h : a.passes
  · rw [if_pos h]
    exact (writes_offers (Action.passes_eq_true.mp h)).items (by simp)
  · simp [h]

/-! ### The table of a program -/

/-- The instructions of an action declare nothing. -/
theorem instructed_declares (g : Generator) (a : Action) :
    ∀ o ∈ g.instructed a, ∀ key, ¬o.Declares key := by
  unfold instructed
  by_cases h : a.passes
  · rw [if_pos h]
    exact (instructionOffers_declares g a).items (by simp)
  · simp [h]

/-- A returned program has the table of the declarations of its actions: diagnostics and
instructions add nothing to it. -/
theorem generate_sameTable {actions : List Action} {r₀ r : Run} {texts : String × String}
    (h : (g.generate actions).run r₀ = (.ok texts, r)) :
    r.buffers.SameTable (g.declaredBy actions) := by
  obtain ⟨os, hprogram, hbuffers⟩ := generate_returns h
  obtain ⟨-, rfl⟩ := program_eq_ok.mp hprogram
  rw [hbuffers, Buffers.acceptAll_append, Buffers.acceptAll_append]
  have hdeclared := (sameTable_skipped actions).acceptAll (actions.flatMap g.declared)
  refine Buffers.SameTable.trans (Buffers.sameTable_acceptAll_of_forall fun o ho => ?_) hdeclared
  obtain ⟨a, -, ho⟩ := List.mem_flatMap.mp ho
  exact instructed_declares g a o ho

/-- The offers of the declarations of a program have lines. -/
theorem worded_declared (g : Generator) (actions : List Action) :
    ∀ o ∈ actions.flatMap g.declared, o.Worded :=
  (Orderly.flatMap (orderly_declared g) [] actions).worded

/-- A valid action that is the first to offer something under a name: nothing that is found under
the name is offered by the actions before it, nor by the action itself before this offer. -/
structure OffersFirst (g : Generator) (before : List Action) (a : Action) (key : Atom)
    (d : Declared) (line : String) : Prop where
  valid : a.isValid = .ok true
  earlier : ∀ b ∈ before, ∀ o ∈ g.declared b, ∀ k, o.Declares k → k.finds key = false
  own : ∃ os problems rest, g.offers a = .ok (os ++ .declare key d line problems :: rest) ∧
    ∀ o ∈ os, ∀ k, o.Declares k → k.finds key = false

/-- A declared offer of an action is one of its offers, and the action is valid. -/
theorem offers_of_declared {os : List Offer} (h : g.declared a = os) (hos : os ≠ []) :
    a.isValid = .ok true ∧ g.offers a = .ok os := by
  unfold declared at h
  by_cases hpasses : a.passes
  · rw [if_pos hpasses] at h
    refine ⟨Action.passes_eq_true.mp hpasses, ?_⟩
    cases hoffers : g.offers a with
    | error f => simp [hoffers, Outcome.items, hos.symm] at h
    | ok os' => rw [← h, hoffers]; rfl
  · simp [hpasses, hos.symm] at h

/-- A symbol of the table of some actions comes from the first of them to offer its name, and stands
beside the line that this action writes. -/
theorem exists_first_action {actions : List Action} {i : Nat} {key : Atom} {d : Declared}
    (h : (g.declaredBy actions).symbols[i]? = some (key, d)) :
    ∃ before a after line, actions = before ++ a :: after ∧ g.OffersFirst before a key d line ∧
      (g.declaredBy actions).declarations[i]? = some line := by
  obtain ⟨earlier, line, problems, later, hsplit, hfirst, hline⟩ :=
    Buffers.exists_first_offer (worded_declared g actions) h
  obtain ⟨before, a, after, own, rest, rfl, hown, rfl⟩ := exists_source_of_flatMap hsplit
  obtain ⟨hvalid, hoffers⟩ := offers_of_declared hown (by simp)
  simp only [List.forall_mem_append] at hfirst
  refine ⟨before, a, after, line, rfl, ⟨hvalid, fun b hb o ho => ?_, ?_⟩, hline⟩
  · exact hfirst.1 o (List.mem_flatMap.mpr ⟨b, hb, ho⟩)
  · exact ⟨own, problems, rest, hoffers, hfirst.2⟩

/-- What an action offers first is declared under a name that counts, with the value that the action
writes. -/
theorem OffersFirst.writes {before : List Action} {key : Atom} {d : Declared} {line : String}
    (h : g.OffersFirst before a key d line) :
    (Value.atom key).truthy = true ∧
      ∃ value, g.writtenValue a d = .ok value ∧ line = d.line (.atom key) value := by
  obtain ⟨os, problems, rest, hoffers, -⟩ := h.own
  exact writes_offers h.valid _ hoffers _ (List.mem_append_right _ List.mem_cons_self)

/-- A returned program has one declaration line for each symbol. The names of the symbols count, and
none is found under another; the line of a symbol declares it by its name, with the storage class
and the data type of the thing, and with the value that the first action to register the name
writes. -/
theorem declaration_lines {actions : List Action} {r₀ r : Run} {texts : String × String}
    (h : (g.generate actions).run r₀ = (.ok texts, r)) :
    (r.buffers.symbols.map Prod.fst).Nodup ∧
      (r.buffers.symbols.Pairwise fun s t => s.1.finds t.1 = false) ∧
      (∀ s ∈ r.buffers.symbols, (Value.atom s.1).truthy = true) ∧
      r.buffers.declarations.length = r.buffers.symbols.length ∧
      ∀ (i : Nat) key d, r.buffers.symbols[i]? = some (key, d) →
        ∃ before a after value, actions = before ++ a :: after ∧
          g.writtenValue a d = .ok value ∧
          g.OffersFirst before a key d (d.line (.atom key) value) ∧
          r.buffers.declarations[i]? = some (d.line (.atom key) value) := by
  obtain ⟨hsymbols, hlines⟩ := generate_sameTable h
  rw [hsymbols, hlines]
  have hempty : Buffers.Distinct {} := List.Pairwise.nil
  have hdistinct : (g.declaredBy actions).Distinct := hempty.acceptAll _
  have haligned : (g.declaredBy actions).Aligned :=
    Buffers.Aligned.acceptAll rfl (worded_declared g actions)
  refine ⟨?_, hdistinct, fun s hs => ?_, haligned.symm, fun i key d hi => ?_⟩
  · -- A name is found under itself, so names of which none is found under another differ.
    rw [List.nodup_iff_pairwise_ne, List.pairwise_map]
    refine hdistinct.imp fun {s t} hfinds heq => ?_
    rw [heq, Atom.finds_self] at hfinds
    cases hfinds
  · obtain ⟨i, hi⟩ := List.mem_iff_getElem?.mp hs
    obtain ⟨before, a, after, line, -, hfirst, -⟩ := exists_first_action hi
    exact hfirst.writes.1
  · obtain ⟨before, a, after, line, hactions, hfirst, hline⟩ := exists_first_action hi
    obtain ⟨-, value, hvalue, rfl⟩ := hfirst.writes
    exact ⟨before, a, after, value, hactions, hvalue, hfirst, hline⟩

end

/-- A robot target on its own, then a movement to it under a work object. -/
def fixtureActions : List Action :=
  [.robotTarget (benchTarget "p10"),
    .movement (benchMovement .absoluteJoint fixture) (some (.robotTarget (benchTarget "p10")))]

/-- The target, the work object and the joint target of the movement stand beside their lines. -/
theorem declaration_lines_fixture :
    letI := turnsToPoint
    ∃ texts r, (bench.generate fixtureActions).run {} = (.ok texts, r) ∧
      (r.buffers.symbols.map Prod.fst).Nodup ∧
      (r.buffers.symbols.Pairwise fun s t => s.1.finds t.1 = false) ∧
      (∀ s ∈ r.buffers.symbols, (Value.atom s.1).truthy = true) ∧
      r.buffers.declarations.length = r.buffers.symbols.length ∧
      (∀ (i : Nat) key d, r.buffers.symbols[i]? = some (key, d) →
        ∃ before a after value, fixtureActions = before ++ a :: after ∧
          bench.writtenValue a d = .ok value ∧
          bench.OffersFirst before a key d (d.line (.atom key) value) ∧
          r.buffers.declarations[i]? = some (d.line (.atom key) value)) ∧
      r.buffers.symbols.map Prod.fst = [.text "p10", .text "fixture", .text "p10_jt"] ∧
      r.buffers.declarations[2]? = some
        "CONST jointtarget p10_jt := [[100, 0, 0, 0, 0, 0], [9E9, 9E9, 9E9, 9E9, 9E9, 9E9]];" := by
  let := turnsToPoint
  obtain ⟨texts, h⟩ :=
    Outcome.run_of_isOk (x := bench.generate fixtureActions) (s := {}) (by decide +kernel)
  obtain ⟨hnodup, hdistinct, htruthy, hlength, hlines⟩ := declaration_lines h
  exact ⟨texts, _, h, hnodup, hdistinct, htruthy, hlength, hlines, by decide +kernel,
    by decide +kernel⟩

end Generator

end Program

end RobotProgram
