import ContractMachine.Record
import Mathlib.Algebra.GroupWithZero.Nat
import Mathlib.Data.List.Infix

/-!
Histories of runs: what has happened, in order, and in which frame. A frame is known by its place,
so that the frames around it are the ends of that place. What a history keeps of a frame is what is
left when the frame and all those around it have succeeded; what it records is marked where one of
them has failed.

The level says which frames count: from zero on all of them, from the level of a frame on those
within it. `kept_close` and `records_close` say what becomes of both when a frame ends.
-/

namespace ContractMachine

/-- What a frame does that is seen afterwards. A call or a creation has a moment, by which the frame
is known that it asks for. -/
inductive Deed where
  | logged (log : Log)
  | refunded (gas : Nat)
  | removed (account : Address) (record : Record)
  | asked (moment : Nat) (record : Record)
  | ended (succeeded : Bool)
  deriving DecidableEq

def Record.mark (record : Record) (rejected : Bool) : Record := { record with rejected }

structure Record.MadeAt (record : Record) (index : Nat) : Prop where
  index : record.index = index
  accepted : record.rejected = false

theorem Record.mark_of_accepted {record : Record} (accepted : record.rejected = false) :
    record.mark false = record := by
  rw [mark, ← accepted]

theorem Record.reject_mark (record : Record) (rejected : Bool) :
    (record.mark rejected).reject = record.mark true := rfl

namespace Deed

def log? : Deed → Option Log
  | .logged log => some log
  | _ => none

def refund? : Deed → Option Nat
  | .refunded gas => some gas
  | _ => none

def account? : Deed → Option Address
  | .removed account _ => some account
  | _ => none

def record? : Deed → Option Record
  | .removed _ record | .asked _ record => some record
  | _ => none

end Deed

/-- A frame by the moments at which it and the frames around it were asked for, its own first. The
root has none. -/
abbrev Place := List Nat

def Place.around (level : Nat) (place : Place) : List Place := place.tails.filter (level ≤ ·.length)

structure Happening where
  place : Place
  deed : Deed
  deriving DecidableEq

def Happening.subject (happening : Happening) : Place :=
  match happening.deed with
  | .asked moment _ => moment :: happening.place
  | _ => happening.place

theorem Happening.place_suffix_subject (happening : Happening) :
    happening.place <:+ happening.subject := by
  unfold subject
  split
  · exact List.suffix_cons _ _
  · exact List.suffix_refl _

abbrev History := List Happening

namespace History

def Kept (history : History) (level : Nat) (place : Place) : Prop :=
  ∀ frame ∈ place.around level, ⟨frame, .ended true⟩ ∈ history

def Dropped (history : History) (level : Nat) (place : Place) : Prop :=
  ∃ frame ∈ place.around level, ⟨frame, .ended false⟩ ∈ history

instance (history : History) (level : Nat) (place : Place) : Decidable (history.Kept level place) :=
  inferInstanceAs (Decidable (∀ frame ∈ place.around level, ⟨frame, .ended true⟩ ∈ history))

instance (history : History) (level : Nat) (place : Place) :
    Decidable (history.Dropped level place) :=
  inferInstanceAs (Decidable (∃ frame ∈ place.around level, ⟨frame, .ended false⟩ ∈ history))

def keptOf {α : Type} (history : History) (level : Nat) (pick : Deed → Option α) (part : History) :
    List α :=
  part.filterMap fun happening =>
    if history.Kept level happening.place then pick happening.deed else none

def kept {α : Type} (history : History) (level : Nat) (pick : Deed → Option α) : List α :=
  history.keptOf level pick history

/-- The records of a part of the history. A record is rejected if the frame that it concerns or one
around that has failed. -/
def recordsOf (history : History) (level : Nat) (part : History) : List Record :=
  part.filterMap fun happening => happening.deed.record?.map fun record =>
    record.mark (decide (history.Dropped level happening.subject))

def records (history : History) (level : Nat) : List Record := history.recordsOf level history

def entries (history : History) : List (Place × Record) :=
  history.filterMap fun happening => happening.deed.record?.map fun record =>
    (happening.place, record)

def inside (history : History) (place : Place) : History :=
  history.filter fun happening => decide (place <:+ happening.place)

end History

namespace Place

variable {place outer frame : Place} {level : Nat}

theorem mem_around : frame ∈ place.around level ↔ frame <:+ place ∧ level ≤ frame.length := by
  rw [around, List.mem_filter, List.mem_tails, decide_eq_true_eq]

theorem around_within (place : Place) : place.around (place.length + 1) = [] := by
  refine List.eq_nil_iff_forall_not_mem.mpr ?_
  intro frame among
  obtain ⟨ends, deeper⟩ := mem_around.mp among
  have length := ends.length_le
  omega

theorem around_self : frame ∈ place.around place.length ↔ frame = place := by
  rw [mem_around]
  constructor
  · intro ⟨ends, deep⟩
    exact ends.eq_of_length (Nat.le_antisymm ends.length_le deep)
  · rintro rfl
    exact ⟨List.suffix_refl _, Nat.le_refl _⟩

/-- Of the frames around a place inside `outer`, those from the level of `outer` on lie within
it. -/
theorem mem_around_outer (within : outer <:+ place) :
    frame ∈ place.around outer.length ↔ frame = outer ∨
    frame ∈ place.around (outer.length + 1) := by
  rw [mem_around, mem_around]
  constructor
  · intro ⟨ends, deep⟩
    rcases Nat.eq_or_lt_of_le deep with same | deeper
    · have both := List.suffix_of_suffix_length_le ends within (Nat.le_of_eq same.symm)
      exact .inl (both.eq_of_length same.symm)
    · exact .inr ⟨ends, deeper⟩
  · rintro (rfl | ⟨ends, deeper⟩)
    · exact ⟨within, Nat.le_refl _⟩
    · exact ⟨ends, Nat.le_of_succ_le deeper⟩

end Place

namespace History

section

variable {α : Type} {history before own part : History} {place target frame : Place} {level : Nat}
  {succeeded : Bool} {pick : Deed → Option α} {deeds : List Deed}

theorem keptOf_append (first second : History) :
    history.keptOf level pick (first ++ second) =
      history.keptOf level pick first ++ history.keptOf level pick second :=
  List.filterMap_append

theorem recordsOf_append (first second : History) :
    history.recordsOf level (first ++ second) = history.recordsOf level first ++
      history.recordsOf level second :=
  List.filterMap_append

theorem entries_append (first second : History) :
    entries (first ++ second) = first.entries ++ second.entries :=
  List.filterMap_append

theorem inside_append (first second : History) (place : Place) :
    inside (first ++ second) place = first.inside place ++ second.inside place :=
  List.filter_append ..

theorem length_records (history : History) (level : Nat) (part : History) :
    (history.recordsOf level part).length = part.entries.length := by
  induction part with
  | nil => rfl
  | cons happening rest ih =>
      unfold recordsOf entries at ih ⊢
      rw [List.filterMap_cons, List.filterMap_cons]
      cases happening.deed.record? with
      | none => exact ih
      | some record => exact congrArg Nat.succ ih

/-- The records stand as they were made, whatever their marks. -/
theorem recordsOf_getElem? (history : History) (level : Nat) {i : Nat} {record : Record}
    (made : part.entries[i]? = some (place, record)) :
    ∃ rejected, (history.recordsOf level part)[i]? = some (record.mark rejected) := by
  induction part generalizing i with
  | nil => cases made
  | cons happening rest ih =>
      rw [entries, List.filterMap_cons] at made
      rw [recordsOf, List.filterMap_cons]
      cases its : happening.deed.record? with
      | none =>
          rw [its] at made
          exact ih made
      | some first =>
          rw [its] at made
          cases i with
          | zero =>
              cases made
              exact ⟨_, rfl⟩
          | succ i => exact ih made

theorem keptOf_congr {other : History}
    (same : ∀ happening ∈ part, history.Kept level happening.place ↔
      other.Kept level happening.place) :
    history.keptOf level pick part = other.keptOf level pick part := by
  refine List.filterMap_congr ?_
  intro happening among
  simp only [same happening among]

theorem recordsOf_congr {other : History}
    (same : ∀ happening ∈ part, history.Dropped level happening.subject ↔
      other.Dropped level happening.subject) :
    history.recordsOf level part = other.recordsOf level part := by
  refine List.filterMap_congr ?_
  intro happening among
  simp only [same happening among]

def doing (place : Place) (deeds : List Deed) : History := deeds.map (Happening.mk place)

theorem mem_doing {happening : Happening} :
    happening ∈ doing place deeds ↔ happening.place = place ∧ happening.deed ∈ deeds := by
  rw [doing, List.mem_map]
  constructor
  · rintro ⟨deed, among, rfl⟩
    exact ⟨rfl, among⟩
  · rintro ⟨rfl, among⟩
    exact ⟨_, among, rfl⟩

theorem keptOf_doing (history : History) (level : Nat) (pick : Deed → Option α) (place : Place)
    (deeds : List Deed) :
    history.keptOf level pick (doing place deeds) =
      deeds.filterMap fun deed => if history.Kept level place then pick deed else none :=
  List.filterMap_map

theorem recordsOf_doing (history : History) (level : Nat) (place : Place) (deeds : List Deed) :
    history.recordsOf level (doing place deeds) = deeds.filterMap fun deed =>
      deed.record?.map fun record =>
      record.mark (decide (history.Dropped level (Happening.mk place deed).subject)) :=
  List.filterMap_map

/-- As long as no frame ends, what has ended is what had ended before. -/
theorem mem_append_doing (goesOn : ∀ succeeded, .ended succeeded ∉ deeds) :
    ⟨frame, .ended succeeded⟩ ∈ own ++ doing place deeds ↔ ⟨frame, .ended succeeded⟩ ∈ own := by
  rw [List.mem_append, mem_doing]
  constructor
  · rintro (among | ⟨-, among⟩)
    · exact among
    · exact absurd among (goesOn succeeded)
  · exact .inl

theorem kept_append_doing (goesOn : ∀ succeeded, .ended succeeded ∉ deeds) :
    (own ++ doing place deeds).Kept level target ↔ own.Kept level target :=
  forall₂_congr fun _ _ => mem_append_doing goesOn

theorem dropped_append_doing (goesOn : ∀ succeeded, .ended succeeded ∉ deeds) :
    (own ++ doing place deeds).Dropped level target ↔ own.Dropped level target :=
  exists_congr fun _ => and_congr_right fun _ => mem_append_doing goesOn

/-- Of what a frame does itself, everything counts for it. -/
theorem kept_doing (goesOn : ∀ succeeded, .ended succeeded ∉ deeds) :
    (own ++ doing place deeds).kept (place.length + 1) pick =
      own.kept (place.length + 1) pick ++ deeds.filterMap pick := by
  have whole : (own ++ doing place deeds).Kept (place.length + 1) place := by
    intro frame among
    rw [Place.around_within] at among
    cases among
  rw [kept, keptOf_append, keptOf_doing]
  congr 1
  · exact keptOf_congr fun _ _ => kept_append_doing goesOn
  · simp only [if_pos whole]

/-- What a frame asks for is recorded as it is, for it has not failed yet. -/
theorem records_doing (goesOn : ∀ succeeded, .ended succeeded ∉ deeds)
    (accepted : ∀ deed ∈ deeds, ∀ record ∈ deed.record?, record.rejected = false)
    (fresh : ∀ moment record, .asked moment record ∈ deeds →
      ∀ happening ∈ own, moment ∉ happening.place) :
    (own ++ doing place deeds).records (place.length + 1) =
      own.records (place.length + 1) ++ deeds.filterMap Deed.record? := by
  rw [records, recordsOf_append, recordsOf_doing]
  congr 1
  · exact recordsOf_congr fun _ _ => dropped_append_doing goesOn
  · refine List.filterMap_congr ?_
    intro deed among
    have stands :
        ¬ (own ++ doing place deeds).Dropped (place.length + 1)
        (Happening.mk place deed).subject := by
      rw [dropped_append_doing goesOn]
      rintro ⟨frame, around, failed⟩
      cases deed with
      | asked moment record =>
          have here : frame = moment :: place := Place.around_self.mp around
          subst here
          exact fresh moment record among _ failed List.mem_cons_self
      | logged | refunded | removed | ended =>
          have none : frame ∈ ([] : List Place) := Place.around_within place ▸ around
          cases none
    rw [decide_eq_false stands]
    cases made : deed.record? with
    | none => rfl
    | some record => exact congrArg some (Record.mark_of_accepted (accepted deed among record made))

/-- `own` is what has happened in the frame at a place and in those within it, and `before` what has
happened elsewhere until then. The frame itself has not ended. -/
structure Within (place : Place) (before own : History) : Prop where
  elsewhere : ∀ happening ∈ before, ¬ place <:+ happening.place
  inside : ∀ happening ∈ own, place <:+ happening.place
  runs : ∀ succeeded, ⟨place, .ended succeeded⟩ ∉ own

def close (place : Place) (before own : History) (succeeded : Bool) : History :=
  before ++ own ++ [⟨place, .ended succeeded⟩]

theorem keptOf_close (history : History) :
    history.keptOf level pick (close place before own succeeded) =
      history.keptOf level pick before ++ history.keptOf level pick own ++
        history.keptOf level pick [⟨place, .ended succeeded⟩] := by
  rw [close, keptOf_append, keptOf_append]

theorem recordsOf_close (history : History) :
    history.recordsOf level (close place before own succeeded) =
      history.recordsOf level before ++ history.recordsOf level own := by
  rw [close, recordsOf_append, recordsOf_append]
  exact List.append_nil _

namespace Within

variable {flag : Bool}

theorem mem_close_self (within : Within place before own) :
    ⟨place, .ended flag⟩ ∈ close place before own succeeded ↔ flag = succeeded := by
  simp only [close, List.mem_append, List.mem_singleton, Happening.mk.injEq, Deed.ended.injEq,
    true_and]
  constructor
  · rintro ((among | among) | same)
    · exact absurd (List.suffix_refl place) (within.elsewhere _ among)
    · exact absurd among (within.runs flag)
    · exact same
  · exact .inr

theorem mem_close_inside (within : Within place before own) (inside : place <:+ target)
    (among : frame ∈ target.around (place.length + 1)) :
    ⟨frame, .ended flag⟩ ∈ close place before own succeeded ↔ ⟨frame, .ended flag⟩ ∈ own := by
  obtain ⟨ends, deeper⟩ := Place.mem_around.mp among
  have within' : place <:+ frame :=
    List.suffix_of_suffix_length_le inside ends (Nat.le_of_succ_le deeper)
  simp only [close, List.mem_append, List.mem_singleton, Happening.mk.injEq]
  constructor
  · rintro ((early | here) | ⟨same, -⟩)
    · exact absurd within' (within.elsewhere _ early)
    · exact here
    · rw [same] at deeper
      exact absurd deeper (Nat.not_succ_le_self _)
  · exact fun here => .inl (.inr here)

theorem mem_close_elsewhere (within : Within place before own) (outside : ¬ place <:+ frame) :
    ⟨frame, .ended flag⟩ ∈ close place before own succeeded ↔ ⟨frame, .ended flag⟩ ∈ before := by
  simp only [close, List.mem_append, List.mem_singleton, Happening.mk.injEq]
  constructor
  · rintro ((early | here) | ⟨same, -⟩)
    · exact early
    · exact absurd (within.inside _ here) outside
    · exact absurd (same ▸ List.suffix_refl place) outside
  · exact fun early => .inl (.inl early)

theorem kept_close_inside (within : Within place before own) (inside : place <:+ target) :
    (close place before own succeeded).Kept place.length target ↔
      succeeded = true ∧ own.Kept (place.length + 1) target := by
  constructor
  · intro all
    have here := all place ((Place.mem_around_outer inside).mpr (.inl rfl))
    refine ⟨(within.mem_close_self.mp here).symm, ?_⟩
    intro frame among
    exact (within.mem_close_inside inside among).mp
      (all frame ((Place.mem_around_outer inside).mpr (.inr among)))
  · rintro ⟨rfl, deeper⟩ frame among
    rcases (Place.mem_around_outer inside).mp among with rfl | among
    · exact within.mem_close_self.mpr rfl
    · exact (within.mem_close_inside inside among).mpr (deeper frame among)

theorem dropped_close_inside (within : Within place before own) (inside : place <:+ target) :
    (close place before own succeeded).Dropped place.length target ↔
      succeeded = false ∨ own.Dropped (place.length + 1) target := by
  constructor
  · rintro ⟨frame, among, failed⟩
    rcases (Place.mem_around_outer inside).mp among with rfl | among
    · exact .inl (within.mem_close_self.mp failed).symm
    · exact .inr ⟨frame, among, (within.mem_close_inside inside among).mp failed⟩
  · rintro (rfl | ⟨frame, among, failed⟩)
    · exact ⟨place, (Place.mem_around_outer inside).mpr (.inl rfl), within.mem_close_self.mpr rfl⟩
    · exact ⟨frame, (Place.mem_around_outer inside).mpr (.inr among),
        (within.mem_close_inside inside among).mpr failed⟩

theorem kept_close_elsewhere (within : Within place before own) (outside : ¬ place <:+ target) :
    (close place before own succeeded).Kept level target ↔ before.Kept level target := by
  refine forall₂_congr fun frame among => within.mem_close_elsewhere ?_
  exact fun inside => outside (inside.trans (Place.mem_around.mp among).1)

theorem dropped_close_elsewhere (within : Within place before own) (outside : ¬ place <:+ target) :
    (close place before own succeeded).Dropped level target ↔ before.Dropped level target := by
  refine exists_congr fun frame => and_congr_right fun among => within.mem_close_elsewhere ?_
  exact fun inside => outside (inside.trans (Place.mem_around.mp among).1)

/-- When a frame ends, what it has kept is kept on if it has succeeded, and else is gone. -/
theorem kept_close (within : Within place before own) (ending : ∀ flag, pick (.ended flag) = none) :
    (close place before own succeeded).kept place.length pick =
      before.kept place.length pick ++
        if succeeded then own.kept (place.length + 1) pick else [] := by
  have last :
      (close place before own succeeded).keptOf place.length pick [⟨place, .ended succeeded⟩] =
        [] := by
    simp only [keptOf, List.filterMap_cons, List.filterMap_nil, ending, ite_self]
  rw [kept, keptOf_close, last, List.append_nil]
  congr 1
  · exact keptOf_congr fun happening early => within.kept_close_elsewhere
      (within.elsewhere happening early)
  · cases succeeded with
    | true =>
        refine List.filterMap_congr ?_
        intro happening here
        simp only [within.kept_close_inside (within.inside happening here), true_and]
    | false =>
        refine List.filterMap_eq_nil_iff.mpr ?_
        intro happening here
        refine if_neg ?_
        rw [within.kept_close_inside (within.inside happening here)]
        exact fun kept => Bool.false_ne_true kept.1

theorem subject_inside (within : Within place before own) {happening : Happening}
    (here : happening ∈ own) : place <:+ happening.subject :=
  (within.inside happening here).trans happening.place_suffix_subject

/-- When a frame fails, all that has been recorded in it is rejected. -/
theorem recordsOf_own (within : Within place before own) (succeeded : Bool) :
    (close place before own succeeded).recordsOf place.length own =
      if succeeded then own.records (place.length + 1)
      else (own.records (place.length + 1)).map Record.reject := by
  cases succeeded with
  | true =>
      refine List.filterMap_congr ?_
      intro happening here
      simp only [within.dropped_close_inside (within.subject_inside here), Bool.true_eq_false,
        false_or]
  | false =>
      rw [if_neg Bool.false_ne_true, records, recordsOf, recordsOf, List.map_filterMap]
      refine List.filterMap_congr ?_
      intro happening here
      rw [Option.map_map]
      refine Option.map_congr ?_
      intro record _
      have dropped : (close place before own false).Dropped place.length happening.subject :=
        (within.dropped_close_inside (within.subject_inside here)).mpr (.inl rfl)
      rw [decide_eq_true dropped, Function.comp_apply, Record.reject_mark]

end Within

/-- With the root everything ends. -/
theorem records_close_root (within : Within [] [] own) :
    (close [] [] own succeeded).records 0 =
      if succeeded then own.records 1 else (own.records 1).map Record.reject := by
  have inner := within.recordsOf_own succeeded
  rw [records, recordsOf_close]
  exact inner

/-- A frame that was asked for is recorded by the frame that has asked, before all that is recorded
in it. -/
theorem records_close {moment : Nat} {asker : Place} {record : Record}
    (accepted : record.rejected = false)
    (within : Within (moment :: asker) (before ++ doing asker [.asked moment record]) own)
    (fresh : ∀ happening ∈ before, moment ∉ happening.subject) :
    (close (moment :: asker) (before ++ doing asker [.asked moment record]) own succeeded).records
      (asker.length + 1) =
      before.records (asker.length + 1) ++ (if succeeded then record else record.reject) ::
        if succeeded then
          own.records (asker.length + 2)
        else (own.records (asker.length + 2)).map Record.reject := by
  have goesOn : ∀ succeeded, Deed.ended succeeded ∉ [Deed.asked moment record] := by simp
  -- Three parts: what was recorded before, the record of the frame itself, and what is within it.
  have first :
      (close (moment :: asker) (before ++ doing asker [.asked moment record]) own
        succeeded).recordsOf
      (asker.length + 1) before = before.records (asker.length + 1) := by
    refine recordsOf_congr ?_
    intro happening early
    have outside : ¬ (moment :: asker) <:+ happening.subject :=
      fun inside => fresh happening early (inside.subset List.mem_cons_self)
    exact (within.dropped_close_elsewhere outside).trans (dropped_append_doing goesOn)
  have asked :
      (close (moment :: asker) (before ++ doing asker [.asked moment record]) own
        succeeded).recordsOf
      (asker.length + 1) (doing asker [.asked moment record]) =
        [if succeeded then record else record.reject] := by
    have dropped :
        (close (moment :: asker) (before ++ doing asker [.asked moment record]) own
          succeeded).Dropped
        (asker.length + 1) (moment :: asker) ↔ succeeded = false := by
      refine (within.dropped_close_inside (List.suffix_refl _)).trans ?_
      constructor
      · rintro (failed | ⟨frame, around, -⟩)
        · exact failed
        · have none : frame ∈ ([] : List Place) := Place.around_within (moment :: asker) ▸ around
          cases none
      · exact .inl
    rw [recordsOf_doing]
    simp only [List.filterMap_cons, List.filterMap_nil, Deed.record?, Option.map_some,
      Happening.subject, dropped]
    cases succeeded with
    | true => exact congrArg List.singleton (Record.mark_of_accepted accepted)
    | false => rfl
  have inner := within.recordsOf_own succeeded
  rw [List.length_cons] at inner
  rw [records, recordsOf_close, recordsOf_append, first, asked, inner, List.append_assoc]
  rfl

/-- A record has as its index its place among the records of the frame that makes it, those of the
frames within it included. -/
def Indexed (history : History) : Prop :=
  ∀ (place : Place) (i : Nat) (record : Record),
    (history.inside place).entries[i]? = some (place, record) → record.index = i

theorem indexed_nil : Indexed [] := by
  intro place i record found
  cases found

theorem Indexed.append (indexed : history.Indexed) {happening : Happening}
    (index : ∀ record, happening.deed.record? = some record →
      record.index = (history.inside happening.place).entries.length) :
    Indexed (history ++ [happening]) := by
  intro place i record found
  rw [inside_append, entries_append, List.getElem?_append] at found
  split at found
  · exact indexed place i record found
  · rename_i behind
    -- Only the last record can stand there, and only if the frame itself has made it.
    by_cases within : place <:+ happening.place
    · have alone : inside [happening] place = [happening] :=
        List.filter_eq_self.mpr (by simpa using within)
      rw [alone] at found
      cases made : happening.deed.record? with
      | none =>
          rw [entries, List.filterMap_cons, made] at found
          cases found
      | some last =>
          rw [entries, List.filterMap_cons, made] at found
          cases position : i - (history.inside place).entries.length with
          | zero =>
              rw [position] at found
              cases found
              have counted := index record made
              omega
          | succ n =>
              rw [position] at found
              cases found
    · have none : inside [happening] place = [] :=
        List.filter_eq_nil_iff.mpr (by simpa using within)
      rw [none] at found
      cases found

end

end History

end ContractMachine
