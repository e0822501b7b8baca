import BufferPool.Proofs.Table.Slots

/-!
# Generations

Callers may use a table in any order and keep identifiers for as long as they like. `SubpageTable.Passes` is
such a use, operation by operation and with any arguments, as long as no check fails. The generation of a node
counts how often it was vacated, so an identifier names its subpage until its node is vacated, and nothing
afterwards unless the generations begin anew (`SubpageTable.Resolves`).

A subpage is removed by the number of its node, and the generation of the identifier is not looked at. A
second removal through the same identifier takes out whatever the node holds by then. So an identifier is good
until its own removal only among callers that remove none twice (`SubpageTable.RemovesOnce`).
-/

namespace BufferPool

namespace Subpage

/-- The subpage after a request for a slot that was answered. -/
def answered (s : Subpage) : Option Locator → Checked Subpage
  | none => .ok s
  | some _ => if s.slotSize = 0 then .ok s else do return (← s.claim).1

/-- The subpage after a slot came back, when the page stays carved or does not. -/
def returned (s : Subpage) (slot : Nat) (stays : Bool) : Checked Subpage :=
  if s.slotSize = 0 then .ok s
  else do
    let s ← s.release slot
    return if stays then s else s.retire

end Subpage

namespace SubpageTable

/-- An operation on a table, with its answer. -/
inductive Action where
  | addedHead (id : SubpageId)
  | inserted (s : Subpage) (id : SubpageId)
  | enlisted (head id : SubpageId) (slotSize : Nat)
  | leased (id : SubpageId) (locator : Option Locator)
  | gaveBack (head id : SubpageId) (slot : Nat) (stays : Bool)
  | removed (id : SubpageId) (s : Subpage)

namespace Action

/-- The identifier that an action gives out. -/
def given? : Action → Option SubpageId
  | .addedHead id => some id
  | .inserted _ id => some id
  | _ => none

/-- How often an action vacates a node. -/
def vacations (n : Nat) : Action → Nat
  | .removed id _ => if id.node = n then 1 else 0
  | _ => 0

/-- What an action makes of the subpage of an identifier. -/
def update (id : SubpageId) (s : Subpage) : Action → Checked Subpage
  | .enlisted _ x slotSize => if x = id then s.carve slotSize else .ok s
  | .leased x locator => if x = id then s.answered locator else .ok s
  | .gaveBack _ x slot stays => if x = id then s.returned slot stays else .ok s
  | _ => .ok s

end Action

/-- The action of an operation that fails no check. -/
inductive Does : SubpageTable → Action → SubpageTable → Prop
  | addHead {t : SubpageTable} : Does t (.addedHead t.addHead.2) t.addHead.1
  | insert {t : SubpageTable} (s : Subpage) : Does t (.inserted s (t.insert s).2) (t.insert s).1
  | enlist {t t' : SubpageTable} {head id : SubpageId} {slotSize : Nat} :
    t.enlist head id slotSize = .ok t' → Does t (.enlisted head id slotSize) t'
  | lease {t : SubpageTable} {id : SubpageId} {r : SubpageTable × Option Locator} :
    t.lease id = .ok r → Does t (.leased id r.2) r.1
  | giveBack {t : SubpageTable} {head id : SubpageId} {slot : Nat} {r : SubpageTable × Bool} :
    t.giveBack head id slot = .ok r → Does t (.gaveBack head id slot r.2) r.1
  | remove {t : SubpageTable} {id : SubpageId} {r : SubpageTable × Subpage} :
    t.remove id = .ok r → Does t (.removed id r.2) r.1

/-- Actions one after the other. -/
inductive Passes : SubpageTable → List Action → SubpageTable → Prop
  | nil {t : SubpageTable} : Passes t [] t
  | cons {t t' t'' : SubpageTable} {e : Action} {rest : List Action} (first : Does t e t')
    (later : Passes t' rest t'') : Passes t (e :: rest) t''

/-- The identifiers that actions give out. -/
def given (actions : List Action) : List SubpageId := actions.filterMap Action.given?

/-- How often actions vacate a node. -/
def vacations (n : Nat) : (actions : List Action) → Nat
  | [] => 0
  | e :: rest => e.vacations n + vacations n rest

variable {t t' t'' : SubpageTable} {id : SubpageId} {s s' : Subpage} {e : Action}
  {actions before after : List Action} {n times : Nat}

@[simp] theorem given_append (before after : List Action) :
    given (before ++ after) = given before ++ given after :=
  List.filterMap_append

@[simp] theorem vacations_append (n : Nat) (before after : List Action) :
    vacations n (before ++ after) = vacations n before + vacations n after := by
  induction before with
  | nil => exact (Nat.zero_add _).symm
  | cons e rest ih => rw [List.cons_append, vacations, ih, vacations, Nat.add_assoc]

theorem vacations_le_length (n : Nat) : ∀ actions : List Action, vacations n actions ≤ actions.length
  | [] => Nat.le_refl 0
  | e :: rest => by
    have others := vacations_le_length n rest
    have once : e.vacations n ≤ 1 := by
      cases e with
      | removed x u =>
        change (if x.node = n then 1 else 0) ≤ 1
        split <;> omega
      | _ => exact Nat.zero_le 1
    rw [vacations, List.length_cons]
    omega

/-! ## One operation -/

/-- The subpage of an identifier is exchanged, and no node is taken or vacated. -/
structure Updates (t : SubpageTable) (id : SubpageId) (s s' : Subpage) (t' : SubpageTable) : Prop
    extends Replaces t id (some s') t' where
  named : t.get? id = some s
  size : t'.nodes.size = t.nodes.size
  vacated : t'.vacated = t.vacated

theorem updates_set (named : t.get? id = some s) (s' : Subpage) : t.Updates id s s' (t.set id s') :=
  ⟨replaces_set named s', named, size_withOccupant .., rfl⟩

theorem updates_self (named : t.get? id = some s) : t.Updates id s s t :=
  ⟨replaces_self named, named, rfl, rfl⟩

theorem Updates.sameNodes (h : t.Updates id s s' t') (same : t'.SameNodes t'') : t.Updates id s s' t'' :=
  ⟨h.toReplaces.sameNodes same, h.named, same.size.trans h.size, same.vacated.trans h.vacated⟩

theorem Updates.set (h : t.Updates id s s' t') (u : Subpage) : t.Updates id s u (t'.set id u) := by
  have again := updates_set ((h.get? id).trans (if_pos rfl)) u
  exact ⟨h.toReplaces.trans again.toReplaces, h.named, again.size.trans h.size,
    again.vacated.trans h.vacated⟩

theorem modifyLinks_sameNodes (id : SubpageId) (f : Links → Links) : (t.modifyLinks id f).Gives t.SameNodes := by
  unfold modifyLinks
  split
  · exact Checked.gives_ok.2 (sameNodes_withLinks ..)
  · exact Checked.gives_error

theorem link_sameNodes (head id : SubpageId) : (t.link head id).Gives t.SameNodes := by
  unfold link setPrev setNext
  refine .guard fun _ => .skip fun links => (modifyLinks_sameNodes _ _).bind fun t₁ first => ?_
  exact (modifyLinks_sameNodes _ _).mono fun t₂ second =>
    ((sameNodes_withLinks ..).trans first).trans second

theorem unlink_sameNodes (id : SubpageId) : (t.unlink id).Gives t.SameNodes := by
  unfold unlink setPrev setNext
  split
  · exact Checked.gives_error
  · refine (modifyLinks_sameNodes _ _).bind fun t₁ first => ?_
    exact (modifyLinks_sameNodes _ _).mono fun t₂ second =>
      ((sameNodes_withLinks ..).trans first).trans second

theorem enlist_updates (head id : SubpageId) (size : Nat) : (t.enlist head id size).Gives fun t' =>
    ∃ s s', s.carve size = .ok s' ∧ t.Updates id s s' t' := by
  unfold enlist
  cases found : t.get id with
  | error v => exact Checked.gives_error
  | ok s =>
    rw [Checked.ok_bind]
    cases carved : s.carve size with
    | error v => exact Checked.gives_error
    | ok s' =>
      rw [Checked.ok_bind]
      refine (link_sameNodes head id).mono fun t' same => ⟨s, s', carved, ?_⟩
      exact (updates_set (get?_of_get found) s').sameNodes same

theorem lease_updates (id : SubpageId) : (t.lease id).Gives fun r =>
    ∃ s s', s.answered r.2 = .ok s' ∧ t.Updates id s s' r.1 := by
  unfold lease
  cases found : t.get id with
  | error v => exact Checked.gives_error
  | ok s =>
    have named := get?_of_get found
    rw [Checked.ok_bind]
    by_cases zero : s.slotSize = 0
    · rw [if_pos zero]
      exact .skip fun l => Checked.gives_pure.2 ⟨s, s, if_pos zero, updates_self named⟩
    rw [if_neg zero]
    split
    · exact Checked.gives_pure.2 ⟨s, s, rfl, updates_self named⟩
    · cases claimed : s.claim with
      | error v => exact Checked.gives_error
      | ok r =>
        obtain ⟨s', slot⟩ := r
        have answer : ∀ l, s.answered (some l) = .ok s' := fun l => by
          rw [Subpage.answered, if_neg zero, claimed]
          rfl
        rw [Checked.ok_bind]
        refine .skip fun l => ?_
        split
        · refine (unlink_sameNodes id).bind fun t' same => Checked.gives_pure.2 ⟨s, s', answer l, ?_⟩
          exact (updates_set named s').sameNodes same
        · exact Checked.gives_pure.2 ⟨s, s', answer l, updates_set named s'⟩

theorem giveBack_updates (head id : SubpageId) (slot : Nat) : (t.giveBack head id slot).Gives fun r =>
    ∃ s s', s.returned slot r.2 = .ok s' ∧ t.Updates id s s' r.1 := by
  unfold giveBack
  cases found : t.get id with
  | error v => exact Checked.gives_error
  | ok s =>
    have named := get?_of_get found
    rw [Checked.ok_bind]
    by_cases zero : s.slotSize = 0
    · rw [if_pos zero]
      exact Checked.gives_pure.2 ⟨s, s, if_pos zero, updates_self named⟩
    rw [if_neg zero]
    cases released : s.release slot with
    | error v => exact Checked.gives_error
    | ok u =>
      have returned : ∀ stays, s.returned slot stays = .ok (if stays then u else u.retire) := fun stays => by
        rw [Subpage.returned, if_neg zero, released]
        rfl
      have set := updates_set named u
      simp only [Checked.ok_bind]
      split
      · refine (link_sameNodes head id).bind fun t' same => Checked.gives_pure.2 ⟨s, u, returned true, ?_⟩
        exact set.sameNodes same
      split
      · exact Checked.gives_pure.2 ⟨s, u, returned true, set⟩
      refine .skip fun links => ?_
      split
      · exact Checked.gives_pure.2 ⟨s, u, returned true, set⟩
      · refine (unlink_sameNodes id).bind fun t' same =>
          Checked.gives_pure.2 ⟨s, u.retire, returned false, ?_⟩
        exact (set.set u.retire).sameNodes same

/-- The vacated nodes are vacant, and each is counted once. -/
structure Tidy (t : SubpageTable) : Prop where
  vacant : ∀ i ∈ t.vacated, i < t.nodes.size ∧ (t.node i).occupant = .vacant
  once : t.vacated.Nodup

/-- What an action does to the nodes of a table. -/
structure Turns (t : SubpageTable) (e : Action) (t' : SubpageTable) : Prop where
  tidy : t'.Tidy
  generation : ∀ n, (t'.node n).generation = (t.node n).generation + .ofNat (e.vacations n)
  head : ∀ n, (t.node n).occupant = .head → (t'.node n).occupant = .head
  /-- A subpage that stays is changed through its present identifier only. -/
  subpage : ∀ n s, (t.node n).occupant = .subpage s → e.vacations n = 0 →
    ∃ s', e.update ⟨n, (t.node n).generation⟩ s = .ok s' ∧ (t'.node n).occupant = .subpage s'
  /-- An identifier that is given out belongs to a node that was vacant. -/
  given : ∀ id, e.given? = some id → (t.node id.node).occupant = .vacant ∧
    (t.node id.node).generation = id.generation ∧ t'.Holds id
  inserted : ∀ s id, e = .inserted s id → t'.get? id = some s

theorem Updates.turns (T : t.Tidy) (h : t.Updates id s s' t') (made : e.update id s = .ok s')
    (others : ∀ x u, x ≠ id → e.update x u = .ok u) (still : ∀ n, e.vacations n = 0)
    (noneGiven : e.given? = none) : t.Turns e t' := by
  obtain ⟨occupant, generation⟩ := get?_eq_some.1 h.named
  have other : ∀ n, (t.node n).occupant ≠ .subpage s → (t'.node n).occupant = (t.node n).occupant :=
    fun n ne => (h.occupant n).trans (if_neg fun (here : n = id.node) => ne (here ▸ occupant))
  refine ⟨⟨fun i hi => ?_, h.vacated ▸ T.once⟩, fun n => ?_, fun n head => ?_, fun n u now _ => ?_,
    fun x given => ?_, fun u x inserted => ?_⟩
  · rw [h.vacated] at hi
    obtain ⟨inside, vacant⟩ := T.vacant i hi
    exact ⟨h.size ▸ inside, (other i (by rw [vacant]; nofun)).trans vacant⟩
  · rw [h.generation, still]
    split
    · rename_i here
      rw [here, generation]
      exact (UInt32.add_zero _).symm
    · exact (UInt32.add_zero _).symm
  · exact (other n (by rw [head]; nofun)).trans head
  · by_cases here : n = id.node
    · subst here
      cases occupant.symm.trans now
      exact ⟨s', generation ▸ made, (h.occupant _).trans (if_pos rfl)⟩
    · exact ⟨u, others _ u fun same => here (congrArg SubpageId.node same),
        ((h.occupant n).trans (if_neg here)).trans now⟩
  · cases noneGiven.symm.trans given
  · subst inserted
    cases noneGiven

theorem Places.turns (T : t.Tidy) {o : Occupant} (h : t.Places o t' id) (occupied : o ≠ .vacant)
    (still : ∀ n, e.vacations n = 0) (plain : ∀ x u, e.update x u = .ok u)
    (given : ∀ x, e.given? = some x → x = id)
    (inserted : ∀ u x, e = .inserted u x → x = id ∧ o = .subpage u) : t.Turns e t' where
  tidy := by
    refine ⟨fun i hi => ?_, h.once⟩
    obtain ⟨old, ne⟩ := h.vacated i hi
    obtain ⟨inside, vacant⟩ := T.vacant i old
    exact ⟨Nat.lt_of_lt_of_le inside h.size, by rw [h.node, if_neg ne]; exact vacant⟩
  generation n := by
    rw [h.node, still]
    split
    · rename_i here
      rw [here, h.generation]
      exact (UInt32.add_zero _).symm
    · exact (UInt32.add_zero _).symm
  head n head := by
    rw [h.node, if_neg]
    · exact head
    · rintro rfl
      cases h.was.symm.trans head
  subpage n u occupant _ := by
    refine ⟨u, plain _ u, ?_⟩
    rw [h.node, if_neg]
    · exact occupant
    · rintro rfl
      cases h.was.symm.trans occupant
  given x named := by
    cases given x named
    refine ⟨h.was, h.generation, ?_, ?_⟩
    · rw [h.node, if_pos rfl]
      exact occupied
    · rw [h.node, if_pos rfl]
  inserted u x e := by
    obtain ⟨rfl, rfl⟩ := inserted u x e
    exact get?_eq_some.2 ⟨by rw [h.node, if_pos rfl], by rw [h.node, if_pos rfl]⟩

theorem Turns.sameNodes (h : t.Turns e t') (same : t'.SameNodes t'') : t.Turns e t'' where
  tidy := by
    refine ⟨fun i hi => ?_, same.vacated ▸ h.tidy.once⟩
    rw [same.vacated] at hi
    rw [same.size, same.occupant]
    exact h.tidy.vacant i hi
  generation n := (same.generation n).trans (h.generation n)
  head n head := (same.occupant n).trans (h.head n head)
  subpage n s occupant still := by
    obtain ⟨s', update, now⟩ := h.subpage n s occupant still
    exact ⟨s', update, (same.occupant n).trans now⟩
  given id given := by
    obtain ⟨vacant, generation, holds⟩ := h.given id given
    exact ⟨vacant, generation, by rw [same.occupant]; exact holds.occupied,
      (same.generation _).trans holds.generation⟩
  inserted s id inserted := (same.get? id).trans (h.inserted s id inserted)

theorem remove_turns (T : t.Tidy) (id : SubpageId) :
    (t.remove id).Gives fun r => t.Turns (.removed id r.2) r.1 := by
  unfold remove
  refine .guard fun _ => ?_
  split
  · rename_i s occupant
    have inside : id.node < t.nodes.size := lt_size_of_occupied (by rw [occupant]; nofun)
    set t' : SubpageTable := { t with
      nodes := t.nodes.modify id.node fun n =>
        { n with occupant := .vacant, generation := n.generation + 1 }
      vacated := id.node :: t.vacated } with eq
    have nodes : ∀ j, t'.node j = if id.node = j then
        ⟨(t.node id.node).links, .vacant, (t.node id.node).generation + 1⟩ else t.node j :=
      node_modify (f := fun n => { n with occupant := .vacant, generation := n.generation + 1 }) rfl inside
    have other : ∀ j, (t.node j).occupant ≠ .subpage s → id.node ≠ j := fun j ne here =>
      ne (here ▸ occupant)
    refine Checked.gives_pure.2 ⟨⟨fun i hi => ?_, ?_⟩, fun n => ?_, fun n head => ?_, fun n u now still => ?_,
      nofun, nofun⟩
    · have size : t'.nodes.size = t.nodes.size := by simp [eq]
      rw [nodes, size]
      split
      · rename_i here
        exact ⟨here ▸ inside, rfl⟩
      · rename_i ne
        exact T.vacant i ((List.mem_cons.1 hi).resolve_left fun here => ne here.symm)
    · refine List.nodup_cons.2 ⟨fun mem => ?_, T.once⟩
      cases occupant.symm.trans (T.vacant _ mem).2
    · rw [nodes, Action.vacations]
      split
      · rename_i here
        rw [here]
        rfl
      · exact (UInt32.add_zero _).symm
    · rw [nodes, if_neg (other n (by rw [head]; nofun))]
      exact head
    · rw [nodes, if_neg]
      · exact ⟨u, rfl, now⟩
      · intro here
        rw [Action.vacations, if_pos here] at still
        cases still
  · exact Checked.gives_error

/-- Whatever the arguments are, an operation that fails no check does to the nodes what its action says. -/
theorem Does.turns (T : t.Tidy) (h : t.Does e t') : t.Turns e t' := by
  cases h with
  | addHead =>
    have placed := places_place T.vacant T.once .head
    have turns : t.Turns (.addedHead t.addHead.2) (t.place .head).1 :=
      placed.turns T nofun (fun _ => rfl) (fun _ _ => rfl) (fun x given => (Option.some.inj given).symm) nofun
    exact turns.sameNodes (sameNodes_withLinks ..)
  | insert s =>
    refine (places_place T.vacant T.once (.subpage s)).turns T nofun (fun _ => rfl) (fun _ _ => rfl)
      (fun x given => (Option.some.inj given).symm) fun u x e => ?_
    cases e
    exact ⟨rfl, rfl⟩
  | enlist enlisted =>
    obtain ⟨s, s', carved, updates⟩ := enlist_updates _ _ _ t' enlisted
    exact updates.turns T ((if_pos rfl).trans carved) (fun x u ne => if_neg (Ne.symm ne)) (fun _ => rfl) rfl
  | lease leased =>
    obtain ⟨s, s', answered, updates⟩ := lease_updates _ _ leased
    exact updates.turns T ((if_pos rfl).trans answered) (fun x u ne => if_neg (Ne.symm ne)) (fun _ => rfl) rfl
  | giveBack gaveBack =>
    obtain ⟨s, s', returned, updates⟩ := giveBack_updates _ _ _ _ gaveBack
    exact updates.turns T ((if_pos rfl).trans returned) (fun x u ne => if_neg (Ne.symm ne)) (fun _ => rfl) rfl
  | remove removed => exact remove_turns T _ _ removed

/-! ## Operations in a row -/

theorem tidy_empty (keepLast : Bool) : (empty keepLast).Tidy := ⟨nofun, List.nodup_nil⟩

theorem Passes.tidy (T : t.Tidy) (p : Passes t actions t') : t'.Tidy := by
  induction p with
  | nil => exact T
  | cons first _ ih => exact ih (first.turns T).tidy

theorem passes_append : ∀ {t : SubpageTable} {before : List Action},
    Passes t (before ++ after) t'' ↔ ∃ t', Passes t before t' ∧ Passes t' after t''
  | t, [] => by
    refine ⟨fun p => ⟨t, .nil, p⟩, fun ⟨t', p, q⟩ => ?_⟩
    cases p
    exact q
  | t, e :: rest => by
    constructor
    · intro p
      cases p with
      | cons first later =>
        obtain ⟨t', middle, last⟩ := passes_append.1 later
        exact ⟨t', .cons first middle, last⟩
    · intro ⟨t', p, last⟩
      cases p with
      | cons first middle => exact .cons first (passes_append.2 ⟨t', middle, last⟩)

theorem passes_concat : Passes t (before ++ [e]) t'' ↔ ∃ t', Passes t before t' ∧ t'.Does e t'' := by
  rw [passes_append]
  refine exists_congr fun t' => and_congr_right fun _ => ⟨fun p => ?_, fun d => .cons d .nil⟩
  cases p with
  | cons first later =>
    cases later
    exact first

/-- What became of an identifier that was given out, after its node was vacated so many times. -/
structure Traces (id : SubpageId) (times : Nat) (t : SubpageTable) : Prop where
  generation : (t.node id.node).generation = id.generation + .ofNat times
  holds : times = 0 → t.Holds id

theorem Holds.traces (h : t.Holds id) : Traces id 0 t where
  generation := h.generation.trans (UInt32.add_zero _).symm
  holds _ := h

namespace Traces

theorem turns (T : Traces id times t) (h : t.Turns e t') : Traces id (times + e.vacations id.node) t' where
  generation := by rw [h.generation, T.generation, UInt32.ofNat_add, UInt32.add_assoc]
  holds none := by
    obtain ⟨never, still⟩ := Nat.add_eq_zero_iff.1 none
    obtain ⟨occupied, generation⟩ := T.holds never
    refine ⟨?_, by rw [h.generation, still, generation]; exact UInt32.add_zero _⟩
    cases occupant : (t.node id.node).occupant with
    | vacant => exact absurd occupant occupied
    | head => rw [h.head _ occupant]; nofun
    | subpage s =>
      obtain ⟨s', -, now⟩ := h.subpage _ s occupant still
      rw [now]
      nofun

theorem passes (T : Traces id times t) (tidy : t.Tidy) (p : Passes t actions t') :
    Traces id (times + vacations id.node actions) t' := by
  induction p generalizing times with
  | nil => exact T
  | cons first _ ih =>
    have turns := first.turns tidy
    rw [vacations, ← Nat.add_assoc]
    exact ih (T.turns turns) turns.tidy

/-- A node that was vacated, but not too often, has another generation now. -/
theorem generation_ne (T : Traces id times t) (some : times ≠ 0) (few : times < 2 ^ 32) :
    (t.node id.node).generation ≠ id.generation := by
  intro same
  have again := congrArg UInt32.toNat (T.generation.symm.trans same)
  have small := id.generation.toNat_lt
  rw [UInt32.toNat_add, UInt32.toNat_ofNat_of_lt' few] at again
  omega

theorem get?_eq_none (T : Traces id times t) (some : times ≠ 0) (few : times < 2 ^ 32) : t.get? id = none := by
  cases found : t.get? id with
  | none => rfl
  | some s => exact absurd (get?_eq_some.1 found).2 (T.generation_ne some few)

/-- An identifier that was given out is not given out again: its node is occupied, or has another generation. -/
theorem notMem_given (T : Traces id times t) (tidy : t.Tidy) (p : Passes t actions t')
    (few : times + vacations id.node actions < 2 ^ 32) : id ∉ given actions := by
  induction p generalizing times with
  | nil => exact List.not_mem_nil
  | @cons _ _ _ e rest first _ ih =>
    have turns := first.turns tidy
    rw [vacations, ← Nat.add_assoc] at few
    intro mem
    obtain ⟨x, listed, gives⟩ := List.mem_filterMap.1 mem
    rcases List.mem_cons.1 listed with rfl | later
    · -- Its node was vacant then, so it had been vacated before and was older.
      obtain ⟨vacant, generation, -⟩ := turns.given id gives
      by_cases never : times = 0
      · exact (T.holds never).occupied vacant
      · exact T.generation_ne never (by omega) generation
    · exact ih (T.turns turns) turns.tidy few (List.mem_filterMap.2 ⟨x, later, gives⟩)

end Traces

theorem Passes.nodup_given (tidy : t.Tidy) (p : Passes t actions t') (few : ∀ n, vacations n actions < 2 ^ 32) :
    (given actions).Nodup := by
  induction p with
  | nil => exact List.nodup_nil
  | @cons _ _ _ e rest first later ih =>
    have turns := first.turns tidy
    have fewer : ∀ n, vacations n rest < 2 ^ 32 := fun n => by
      have all := few n
      rw [vacations] at all
      omega
    have others := ih turns.tidy fewer
    unfold given at others ⊢
    rw [List.filterMap_cons]
    cases gives : e.given? with
    | none => exact others
    | some id =>
      obtain ⟨-, -, holds⟩ := turns.given id gives
      refine List.nodup_cons.2 ⟨holds.traces.notMem_given turns.tidy later ?_, others⟩
      rw [Nat.zero_add]
      exact fewer id.node

/-- The subpage that was given an identifier is named by it, with all changes that were made to it since. -/
def Names (t : SubpageTable) (id : SubpageId) (s : Subpage) (since : List Action) : Prop :=
  ∃ s', since.foldlM (Action.update id) s = .ok s' ∧ t.get? id = some s'

/-- An identifier names its subpage until its node is vacated. -/
theorem Passes.names (tidy : t.Tidy) (named : t.get? id = some s) (p : Passes t actions t')
    (still : vacations id.node actions = 0) : t'.Names id s actions := by
  induction p generalizing s with
  | nil => exact ⟨s, rfl, named⟩
  | cons first _ ih =>
    have turns := first.turns tidy
    obtain ⟨here, later⟩ := Nat.add_eq_zero_iff.1 still
    obtain ⟨occupant, generation⟩ := get?_eq_some.1 named
    obtain ⟨s₁, update, now⟩ := turns.subpage _ s occupant here
    have named₁ := get?_eq_some.2 ⟨now, (turns.generation id.node).trans
      (by rw [here, generation]; exact UInt32.add_zero _)⟩
    rw [generation] at update
    obtain ⟨s', updates, last⟩ := ih turns.tidy named₁ later
    refine ⟨s', ?_, last⟩
    rw [List.foldlM_cons, update]
    exact updates

/-! ## Removals -/

/-- Identifiers are removed only after they were given out, and none is removed twice. -/
def RemovesOnce (actions : List Action) : Prop :=
  ∀ before x u after, actions = before ++ .removed x u :: after →
    x ∈ given before ∧ ∀ v, .removed x v ∉ before

theorem RemovesOnce.of_append (once : RemovesOnce (before ++ after)) : RemovesOnce before :=
  fun earlier x u later e => once earlier x u (later ++ after) (by rw [e, List.append_assoc, List.cons_append])

theorem Action.removed_of_vacations (vacates : e.vacations n ≠ 0) : ∃ x u, e = .removed x u ∧ x.node = n := by
  cases e with
  | removed x u =>
    refine ⟨x, u, rfl, ?_⟩
    by_contra other
    exact vacates (if_neg other)
  | _ => exact absurd rfl vacates

theorem vacations_ne_zero (mem : .removed id s ∈ actions) : vacations id.node actions ≠ 0 := by
  obtain ⟨before, after, rfl⟩ := List.append_of_mem mem
  rw [vacations_append, vacations, Action.vacations, if_pos rfl]
  omega

/-- If none is removed twice, the identifiers that were given out hold their nodes until they are removed. -/
theorem RemovesOnce.holds {keepLast : Bool} (once : RemovesOnce actions)
    (p : Passes (empty keepLast) actions t) : ∀ x ∈ given actions, t.Holds x ∨ ∃ u, .removed x u ∈ actions := by
  induction actions using List.reverseRecOn generalizing t with
  | nil => exact fun x mem => by cases mem
  | append_singleton earlier e ih =>
    obtain ⟨t₁, p₁, last⟩ := passes_concat.1 p
    have turns := last.turns (p₁.tidy (tidy_empty keepLast))
    have known := ih once.of_append p₁
    intro x mem
    rw [given_append] at mem
    rcases List.mem_append.1 mem with before | now
    · rcases known x before with holds | ⟨u, removed⟩
      · by_cases still : e.vacations x.node = 0
        · exact .inl ((holds.traces.turns turns).holds (by rw [still]))
        · -- The node is vacated through an identifier that was not removed before, so it holds the node too.
          obtain ⟨y, u, rfl, node⟩ := Action.removed_of_vacations still
          obtain ⟨before, first⟩ := once earlier y u [] rfl
          rcases known y before with own | ⟨v, removed⟩
          · cases own.eq_of_node holds node
            exact .inr ⟨u, List.mem_append_right _ List.mem_cons_self⟩
          · exact absurd removed (first v)
      · exact .inr ⟨u, List.mem_append_left _ removed⟩
    · obtain ⟨e', listed, gives⟩ := List.mem_filterMap.1 now
      cases List.mem_singleton.1 listed
      exact .inl (turns.given x gives).2.2

/-- If none is removed twice, no node is vacated before the identifier of its subpage is removed. -/
theorem RemovesOnce.vacations_eq_zero {keepLast : Bool} (once : RemovesOnce (before ++ .inserted s id :: after))
    (p : Passes (empty keepLast) (before ++ .inserted s id :: after) t) (kept : ∀ u, .removed id u ∉ after) :
    vacations id.node after = 0 := by
  induction after using List.reverseRecOn generalizing t with
  | nil => rfl
  | append_singleton earlier e ih =>
    rw [← List.cons_append, ← List.append_assoc] at once p
    obtain ⟨t₁, p₁, last⟩ := passes_concat.1 p
    have never := ih once.of_append p₁ fun u mem => kept u (List.mem_append_left _ mem)
    rw [vacations_append, never, Nat.zero_add]
    by_contra vacates
    obtain ⟨x, u, rfl, node⟩ := Action.removed_of_vacations (e := e) (n := id.node) vacates
    obtain ⟨given, first⟩ := once _ x u [] rfl
    obtain ⟨t₂, p₂, since⟩ := passes_append.1 p₁
    cases since with
    | cons inserted since =>
      have turns := inserted.turns (p₂.tidy (tidy_empty keepLast))
      have traces := ((turns.given id rfl).2.2.traces).passes turns.tidy since
      have own := traces.holds (by rw [never])
      -- The identifier that vacates the node holds it, and so does this one.
      rcases once.of_append.holds p₁ x given with holds | ⟨v, removed⟩
      · cases holds.eq_of_node own node
        exact kept u (List.mem_append_right _ List.mem_cons_self)
      · exact first v removed

/-! ## What identifiers name -/

/-- What becomes of the identifiers that actions give out. -/
structure Resolves (actions : List Action) (t : SubpageTable) : Prop where
  /-- None is given out twice. -/
  apart : (given actions).Nodup
  /-- Each names its subpage, with all changes that are made to it, until its node is vacated. -/
  named : ∀ before s id after, actions = before ++ .inserted s id :: after → vacations id.node after = 0 →
    t.Names id s after
  /-- Then it names nothing. -/
  gone : ∀ before s id after, actions = before ++ .inserted s id :: after → vacations id.node after ≠ 0 →
    t.get? id = none
  removed : ∀ before s id after u, actions = before ++ .inserted s id :: after → .removed id u ∈ after →
    t.get? id = none
  /-- If none is removed twice, only its own removal vacates its node. -/
  kept : RemovesOnce actions → ∀ before s id after, actions = before ++ .inserted s id :: after →
    (∀ u, .removed id u ∉ after) → t.Names id s after

/-- Whatever is done to a table, its identifiers are given out once, and none of them names another subpage
than its own, provided that no node is vacated too often. -/
theorem Passes.resolves {keepLast : Bool} (p : Passes (empty keepLast) actions t)
    (few : ∀ n, vacations n actions < 2 ^ 32) : Resolves actions t := by
  have tidy := tidy_empty keepLast
  have named : ∀ before s id after, actions = before ++ .inserted s id :: after →
      vacations id.node after = 0 → t.Names id s after := by
    rintro before s id after rfl still
    obtain ⟨t₁, p₁, since⟩ := passes_append.1 p
    cases since with
    | cons inserted since =>
      have turns := inserted.turns (p₁.tidy tidy)
      exact since.names turns.tidy (turns.inserted s id rfl) still
  have gone : ∀ before s id after, actions = before ++ .inserted s id :: after →
      vacations id.node after ≠ 0 → t.get? id = none := by
    rintro before s id after rfl vacated
    obtain ⟨t₁, p₁, since⟩ := passes_append.1 p
    have fewer := few id.node
    rw [vacations_append, vacations] at fewer
    cases since with
    | cons inserted since =>
      have turns := inserted.turns (p₁.tidy tidy)
      have traces := ((turns.given id rfl).2.2.traces).passes turns.tidy since
      rw [Nat.zero_add] at traces
      exact traces.get?_eq_none vacated (by omega)
  refine ⟨p.nodup_given tidy few, named, gone, fun before s id after u e mem => ?_,
    fun once before s id after e kept => ?_⟩
  · exact gone before s id after e (vacations_ne_zero mem)
  · subst e
    exact named before s id after rfl (once.vacations_eq_zero p kept)

/-- An identifier that is removed a second time takes the next subpage of its node out of the table, although
the identifier of that subpage was never removed. -/
theorem not_forall_kept_until_removed : ¬ ∀ keepLast actions t, Passes (empty keepLast) actions t →
    (∀ n, vacations n actions < 2 ^ 32) → ∀ before s id after, actions = before ++ .inserted s id :: after →
      (∀ u, .removed id u ∉ after) → t.Names id s after := by
  intro all
  let first : Subpage := .ofPage 1 1 8192 8192
  let second : Subpage := .ofPage 1 2 16384 8192
  let actions : List Action := [.addedHead ⟨0, 0⟩, .inserted first ⟨1, 0⟩, .removed ⟨1, 0⟩ first,
    .inserted second ⟨1, 1⟩, .removed ⟨1, 0⟩ second]
  have twice : Passes (empty true) actions
      ⟨#[⟨some ⟨⟨0, 0⟩, ⟨0, 0⟩⟩, .head, 0⟩, ⟨none, .vacant, 2⟩], [1], true⟩ :=
    .cons .addHead (.cons (.insert first) (.cons (.remove (r := (_, first)) rfl) (.cons (.insert second)
      (.cons (.remove (r := (_, second)) rfl) .nil))))
  have few : ∀ n, vacations n actions < 2 ^ 32 := fun n =>
    Nat.lt_of_le_of_lt (vacations_le_length n actions) (by decide)
  obtain ⟨s, -, named⟩ := all true actions _ twice few (actions.take 3) second ⟨1, 1⟩
    [.removed ⟨1, 0⟩ second] rfl fun u mem => by cases List.mem_singleton.1 mem
  cases named

end SubpageTable

end BufferPool
