import ContractMachine.Proofs.Machine.Chronicle

/-!
What outcomes tell of the run so far. At every moment the outcome of each frame holds what the
history keeps of that frame and of those within it, as if the frame were to succeed, with the
records of all that was asked for there (`Tells`). `Told` says so of all the frames that wait, one
behind the other: what has happened in a frame is what had happened when it began to wait, and
behind that what has happened in the one that it waits for.
-/

namespace ContractMachine

namespace AddressSet

variable {set : AddressSet} {address other : Address}

def Sorted (set : AddressSet) : Prop := set.Pairwise (· < ·)

theorem Sorted.nodup (sorted : set.Sorted) : set.Nodup := List.Pairwise.imp BitVec.ne_of_lt sorted

theorem mem_insert : other ∈ set.insert address ↔ other = address ∨ other ∈ set := by
  induction set with
  | nil => rw [insert, List.mem_singleton, or_iff_left List.not_mem_nil]
  | cons first rest ih =>
      unfold insert
      split
      · exact List.mem_cons
      · split
        · rename_i same
          subst same
          rw [List.mem_cons, ← or_assoc, or_self]
        · rw [List.mem_cons, ih, List.mem_cons, or_left_comm]

theorem Sorted.insert (sorted : set.Sorted) (address : Address) : (set.insert address).Sorted := by
  induction set with
  | nil => exact List.pairwise_singleton _ _
  | cons first rest ih =>
      obtain ⟨least, ordered⟩ := List.pairwise_cons.mp sorted
      unfold AddressSet.insert
      split
      · rename_i below
        refine List.pairwise_cons.mpr ⟨?_, sorted⟩
        intro other among
        rcases List.mem_cons.mp among with rfl | behind
        · exact below
        · exact BitVec.lt_trans below (least other behind)
      · split
        · exact sorted
        · rename_i notBelow different
          refine List.pairwise_cons.mpr ⟨?_, ih ordered⟩
          intro other among
          rcases mem_insert.mp among with rfl | behind
          · exact BitVec.lt_of_le_ne (BitVec.not_lt.mp notBelow) (Ne.symm different)
          · exact least other behind

theorem mem_union {more : AddressSet} : other ∈ set.union more ↔ other ∈ set ∨ other ∈ more := by
  induction more generalizing set with
  | nil => exact (or_iff_left List.not_mem_nil).symm
  | cons first rest ih =>
      refine (ih : other ∈ AddressSet.union (set.insert first) rest ↔ _).trans ?_
      rw [mem_insert, List.mem_cons, or_assoc, or_left_comm]

theorem Sorted.union (sorted : set.Sorted) (more : AddressSet) : (set.union more).Sorted := by
  induction more generalizing set with
  | nil => exact sorted
  | cons first rest ih => exact ih (sorted.insert first)

end AddressSet

theorem Quantity.clamp_add (m n : Nat) : clamp (clamp m + n) = clamp (m + n) := by
  unfold clamp
  omega

structure Outcome.Keeps (outcome : Outcome) (history : History) (level : Nat) : Prop where
  logs : outcome.logs.toList = history.kept level Deed.log?
  deletions : ∀ account, account ∈ outcome.deletions ↔ account ∈ history.kept level Deed.account?
  sorted : AddressSet.Sorted outcome.deletions

def Outcome.Pools (outcome : Outcome) (history : History) (level : Nat) : Prop :=
  outcome.refundPool = Quantity.clamp (history.kept level Deed.refund?).sum

namespace Outcome

variable {outcome parent child later : Outcome} {history own before : History} {level index : Nat}
  {deeds : List Deed} {succeeded : Bool}

theorem Keeps.gains (keeps : outcome.Keeps own level) (gains : outcome.Gains later deeds)
    (kept : ∀ {α : Type} (pick : Deed → Option α),
      history.kept level pick = own.kept level pick ++ deeds.filterMap pick) :
    later.Keeps history level where
  logs := by rw [gains.logs, keeps.logs, kept]
  deletions := by
    intro account
    rw [gains.deletions, AddressSet.mem_union, keeps.deletions, kept, List.mem_append]
  sorted := by
    rw [gains.deletions]
    exact keeps.sorted.union _

theorem Keeps.takes (outer : parent.Keeps before level) (inner : child.Keeps own (level + 1))
    (takes : parent.Takes child index succeeded later)
    (kept : ∀ {α : Type} {pick : Deed → Option α}, (∀ flag, pick (.ended flag) = none) →
      history.kept level pick = before.kept level pick ++
        if succeeded then own.kept (level + 1) pick else []) :
    later.Keeps history level where
  logs := by
    rw [takes.logs, outer.logs, kept fun _ => rfl, inner.logs]
  deletions := by
    intro account
    rw [takes.deletions, kept fun _ => rfl, AddressSet.mem_union, outer.deletions, List.mem_append]
    cases succeeded with
    | true => exact or_congr_right (inner.deletions account)
    | false => rfl
  sorted := by
    rw [takes.deletions]
    exact outer.sorted.union _

theorem Pools.takes (outer : parent.Pools before level)
    (inner : succeeded = true → child.Pools own (level + 1))
    (takes : parent.Takes child index succeeded later)
    (kept : history.kept level Deed.refund? =
      before.kept level Deed.refund? ++
        if succeeded then own.kept (level + 1) Deed.refund? else []) :
    later.Pools history level := by
  rw [Pools, takes.refundPool, kept, List.sum_append]
  cases succeeded with
  | true =>
      have child := inner rfl
      rw [if_pos rfl, if_pos rfl, outer, child, Quantity.clamp_add, Nat.add_comm,
        Quantity.clamp_add, Nat.add_comm]
  | false => exact outer

end Outcome

/-- `own` is what has happened in the frame at a place and in those within it, and the outcome of
the frame tells of it. -/
structure Tells (place : Place) (own : History) (outcome : Outcome) : Prop where
  inside : ∀ happening ∈ own, place <:+ happening.place
  runs : ∀ succeeded, ⟨place, .ended succeeded⟩ ∉ own
  keeps : outcome.Keeps own (place.length + 1)
  pools : outcome.fault = none → outcome.Pools own (place.length + 1)
  records : outcome.records.toList = own.records (place.length + 1)

section

open History

variable {place : Place} {own before past : History} {outcome parent child later : Outcome}
  {deeds : List Deed} {moment : Nat} {record : Record} {succeeded : Bool}

theorem Outcome.Blank.keeps (blank : outcome.Blank) (level : Nat) : outcome.Keeps [] level := by
  refine ⟨congrArg Array.toList blank.logs, ?_, ?_⟩
  · intro account
    rw [blank.deletions]
    rfl
  · rw [blank.deletions]
    exact List.Pairwise.nil

theorem tells_blank (place : Place) (blank : outcome.Blank) : Tells place [] outcome where
  inside := by
    intro happening among
    cases among
  runs := fun _ => List.not_mem_nil
  keeps := blank.keeps _
  pools := fun _ => blank.refundPool
  records := congrArg Array.toList blank.records

/-- The next record of a frame stands behind all those of what has happened in it. -/
theorem Tells.size (tells : Tells place own outcome) :
    outcome.records.size = own.entries.length := by
  rw [← length_records own (place.length + 1) own, ← Array.length_toList, tells.records]
  rfl

/-- The frame goes on. -/
theorem Tells.gains (tells : Tells place own outcome) (gains : outcome.Gains later deeds)
    (goesOn : ∀ succeeded, .ended succeeded ∉ deeds)
    (accepted : ∀ deed ∈ deeds, ∀ record ∈ deed.record?, record.rejected = false)
    (fresh : ∀ moment record, .asked moment record ∈ deeds →
      ∀ happening ∈ own, moment ∉ happening.place) :
    Tells place (own ++ doing place deeds) later where
  inside := by
    intro happening among
    rcases List.mem_append.mp among with early | late
    · exact tells.inside happening early
    · exact (mem_doing.mp late).1 ▸ List.suffix_refl place
  runs := by
    intro succeeded ended
    exact tells.runs succeeded ((mem_append_doing goesOn).mp ended)
  keeps := tells.keeps.gains gains fun _ => kept_doing goesOn
  pools := by
    intro sound
    rw [Outcome.Pools, gains.refundPool sound, tells.pools (gains.fault sound), Quantity.clamp_add,
      kept_doing goesOn, List.sum_append]
  records := by rw [gains.records, tells.records, records_doing goesOn accepted fresh]

/-- A frame takes over one that has ended. -/
theorem Tells.takes (tells : Tells place (before ++ doing place [.asked moment record]) parent)
    (inner : Tells (moment :: place) own child)
    (takes : parent.Takes child before.entries.length succeeded later)
    (accepted : record.rejected = false) (fresh : ∀ happening ∈ before, moment ∉ happening.subject)
    (ahead : moment ∉ place) :
    Tells place
      (close (moment :: place) (before ++ doing place [.asked moment record]) own succeeded)
      later := by
  -- The moment is fresh, so nothing that has happened before lies in the frame that it names.
  have elsewhere : ∀ happening ∈ before ++ doing place [.asked moment record],
      ¬ (moment :: place) <:+ happening.place := by
    intro happening among inside
    have labelled : moment ∈ happening.place := inside.subset List.mem_cons_self
    rcases List.mem_append.mp among with early | last
    · exact fresh happening early (happening.place_suffix_subject.subset labelled)
    · rw [(mem_doing.mp last).1] at labelled
      exact ahead labelled
  have within : Within (moment :: place) (before ++ doing place [.asked moment record]) own :=
    ⟨elsewhere, inner.inside, inner.runs⟩
  have goesOn : ∀ flag, Deed.ended flag ∉ [Deed.asked moment record] := by simp
  have unrejected : ∀ deed ∈ [Deed.asked moment record], ∀ made ∈ deed.record?,
      made.rejected = false := by
    intro deed among made its
    cases List.mem_singleton.mp among
    cases its
    exact accepted
  refine ⟨?inside, ?runs, ?keeps, ?pools, ?records⟩
  case inside =>
    intro happening among
    rcases List.mem_append.mp among with earlier | last
    · rcases List.mem_append.mp earlier with early | within
      · exact tells.inside happening early
      · exact (List.suffix_cons _ _).trans (inner.inside happening within)
    · cases List.mem_singleton.mp last
      exact List.suffix_cons _ _
  case runs =>
    intro flag ended
    have outside : ¬ (moment :: place) <:+ place :=
      fun inside => ahead (inside.subset List.mem_cons_self)
    exact tells.runs flag ((within.mem_close_elsewhere outside).mp ended)
  case keeps => exact tells.keeps.takes inner.keeps takes within.kept_close
  case pools =>
    intro sound
    have outer := tells.pools (takes.fault.symm.trans sound)
    exact outer.takes (fun ends => inner.pools (takes.sound ends)) takes
      (within.kept_close fun _ => rfl)
  case records =>
    have asked : parent.records.toList = before.records (place.length + 1) ++ [record] := by
      refine tells.records.trans (records_doing goesOn unrejected ?_)
      intro other made among happening early labelled
      cases List.mem_singleton.mp among
      exact fresh happening early (happening.place_suffix_subject.subset labelled)
    have index : before.entries.length = (before.records (place.length + 1)).length :=
      (length_records _ _ _).symm
    rw [records_close accepted within fresh, takes.records, asked, inner.records, List.append_assoc]
    cases succeeded with
    | true => rfl
    | false =>
        rw [if_neg Bool.false_ne_true, if_neg Bool.false_ne_true, if_neg Bool.false_ne_true,
          List.append_assoc, index]
        exact List.modifyTailIdx_add _ 0 _ _

def Dated (past : History) : Prop :=
  ∀ (i : Nat) (happening : Happening), past[i]? = some happening → ∀ moment ∈ happening.subject,
    moment ≤ i

theorem dated_nil : Dated [] := by
  intro i happening found
  cases found

theorem Dated.earlier (dated : Dated past) {happening : Happening} (among : happening ∈ past)
    (labelled : moment ∈ happening.subject) : moment < past.length := by
  obtain ⟨i, within, rfl⟩ := List.getElem_of_mem among
  exact Nat.lt_of_le_of_lt (dated i _ (List.getElem?_eq_getElem within) moment labelled) within

theorem Dated.append (dated : Dated past) {happening : Happening}
    (now : ∀ moment ∈ happening.subject, moment ≤ past.length) : Dated (past ++ [happening]) := by
  intro i other found
  rw [List.getElem?_append] at found
  split at found
  · exact dated i other found
  · rename_i behind
    cases position : i - past.length with
    | zero =>
        rw [position] at found
        cases found
        exact fun moment labelled => Nat.le_trans (now moment labelled) (Nat.le_of_not_lt behind)
    | succ n =>
        rw [position] at found
        cases found

theorem Dated.of_append {more : History} (dated : Dated (past ++ more)) : Dated past := by
  intro i happening found
  refine dated i happening ?_
  obtain ⟨within, -⟩ := List.getElem?_eq_some_iff.mp found
  rw [List.getElem?_append_left within, found]

/-- What has happened, as the frames that wait tell it. `own` is what has happened in the frame at
work and in those within it. -/
inductive Told : Place → History → List Waiting → History → Prop where
  | root (own : History) : Told [] own [] own
  | child {place : Place} {before past : History} {waiting : List Waiting} {parent : Waiting}
      {record : Record} (outer : Told place before waiting past)
      (tells : Tells place (before ++ doing place [.asked past.length record]) parent.frame.outcome)
      (awaits : parent.awaited.record = before.entries.length) (accepted : record.rejected = false)
      (own : History) :
      Told (past.length :: place) own (parent :: waiting)
        (past ++ doing place [.asked past.length record] ++ own)

variable {waiting : List Waiting}

theorem Told.append (told : Told place own waiting past) (more : History) :
    Told place (own ++ more) waiting (past ++ more) := by
  cases told with
  | root own => exact .root _
  | child outer tells awaits accepted own =>
      rw [List.append_assoc]
      exact .child outer tells awaits accepted _

/-- The frames at work and around it have been asked for before. -/
theorem Told.ahead (told : Told place own waiting past) :
    ∀ moment ∈ place, moment < past.length := by
  induction told with
  | root own => exact fun _ none => absurd none List.not_mem_nil
  | @child place before past waiting parent record outer tells awaits accepted own ih =>
      intro moment labelled
      have grown :
          past.length < (past ++ doing place [.asked past.length record] ++ own).length := by
        rw [List.length_append, List.length_append]
        exact Nat.lt_add_right _ (Nat.lt_succ_self _)
      rcases List.mem_cons.mp labelled with rfl | around
      · exact grown
      · exact Nat.lt_trans (ih moment around) grown

theorem Told.sublist (told : Told place own waiting past) :
    ∀ happening ∈ own, happening ∈ past := by
  cases told with
  | root own => exact fun _ among => among
  | child outer tells awaits accepted own => exact fun _ among => List.mem_append_right _ among

/-- What the frame at work tells is all that the history has of it. -/
theorem Told.inside_eq (told : Told place own waiting past) (dated : Dated past)
    (inside : ∀ happening ∈ own, place <:+ happening.place) : past.inside place = own := by
  have whole : History.inside own place = own := by
    refine List.filter_eq_self.mpr ?_
    intro happening among
    exact decide_eq_true (inside happening among)
  cases told with
  | root own => exact whole
  | @child place before past waiting parent record outer tells awaits accepted own =>
      have none :
          History.inside (past ++ doing place [.asked past.length record]) (past.length :: place) =
            [] := by
        refine List.filter_eq_nil_iff.mpr ?_
        intro happening among within
        have labelled : past.length ∈ happening.place :=
          (of_decide_eq_true within).subset List.mem_cons_self
        rcases List.mem_append.mp among with early | last
        · have before :=
            dated.of_append.of_append.earlier early (happening.place_suffix_subject.subset labelled)
          exact Nat.lt_irrefl _ before
        · rw [(mem_doing.mp last).1] at labelled
          exact Nat.lt_irrefl _ (outer.ahead _ labelled)
      rw [inside_append, none, whole, List.nil_append]

/-- The history of a run is told by the frames that wait and by the one at work. -/
structure Sound (place : Place) (past : History) (machine : Machine) : Prop where
  told : ∃ own, Told place own machine.waiting past ∧ Tells place own machine.frame.outcome
  dated : Dated past
  indexed : past.Indexed

theorem Dated.append_asked (dated : Dated past) (ahead : ∀ moment ∈ place, moment < past.length) :
    Dated (past ++ doing place [.asked past.length record]) := by
  refine dated.append ?_
  intro moment labelled
  rcases List.mem_cons.mp labelled with rfl | around
  · exact Nat.le_refl _
  · exact Nat.le_of_lt (ahead moment around)

theorem History.Indexed.append_asked (indexed : past.Indexed) (inside : past.inside place = own)
    (made : record.MadeAt own.entries.length) :
      (past ++ doing place [.asked moment record]).Indexed := by
  refine indexed.append ?_
  intro other its
  cases its
  rw [made.index, ← inside]

theorem History.Indexed.append_ended (indexed : past.Indexed) (place : Place) (succeeded : Bool) :
    Indexed (past ++ [⟨place, .ended succeeded⟩]) := by
  refine indexed.append ?_
  intro other its
  cases its

/-- The frame at work asks for another one. -/
theorem Tells.asks (tells : Tells place own outcome) (told : Told place own waiting past)
    (dated : Dated past) (gains : outcome.Gains later [.asked past.length record])
    (accepted : record.rejected = false) :
    Tells place (own ++ doing place [.asked past.length record]) later := by
  refine tells.gains gains (by simp) ?_ ?_
  · intro deed among made its
    cases List.mem_singleton.mp among
    cases its
    exact accepted
  · intro other made among happening early labelled
    cases List.mem_singleton.mp among
    have earlier := told.sublist happening early
    exact Nat.lt_irrefl _ (dated.earlier earlier (happening.place_suffix_subject.subset labelled))

/-- The moment at which a frame is asked for is none of those at which others were. -/
theorem Told.fresh (told : Told place own waiting past) (dated : Dated past) :
    (∀ happening ∈ own, past.length ∉ happening.subject) ∧ past.length ∉ place := by
  constructor
  · intro happening early labelled
    exact Nat.lt_irrefl _ (dated.earlier (told.sublist happening early) labelled)
  · exact fun labelled => Nat.lt_irrefl _ (told.ahead _ labelled)

section

variable {frame asker entered next : Frame} {waits : Waiting} {awaited : Awaited}
  {ledger after : Ledger}

theorem Sound.level {deed? : Option Deed} (sound : Sound place past ⟨frame, waiting, ledger⟩)
    (gains : frame.outcome.Gains next.outcome deed?.toList)
    (alone : ∀ deed ∈ deed?, deed.Alone frame.outcome.records.size) :
    Sound place (past ++ doing place deed?.toList) ⟨next, waiting, after⟩ := by
  obtain ⟨⟨own, told, tells⟩, dated, indexed⟩ := sound
  rw [tells.size] at alone
  have kept : Dated (past ++ doing place deed?.toList) ∧
      Indexed (past ++ doing place deed?.toList) := by
    cases deed? with
    | none =>
        have still : past ++ doing place none.toList = past := List.append_nil past
        rw [still]
        exact ⟨dated, indexed⟩
    | some deed =>
        have concerns := alone deed rfl
        refine ⟨dated.append ?_, indexed.append ?_⟩
        · rw [concerns.subject_eq]
          exact fun moment labelled => Nat.le_of_lt (told.ahead moment labelled)
        · intro record its
          rw [(concerns.madeAt its).index, told.inside_eq dated tells.inside]
  refine ⟨⟨own ++ doing place deed?.toList, told.append _, tells.gains gains ?_ ?_ ?_⟩, kept.1,
    kept.2⟩
  · intro succeeded among
    exact (alone _ (Option.mem_toList.mp among)).ne_ended succeeded rfl
  · intro deed among record its
    exact ((alone deed (Option.mem_toList.mp among)).madeAt its).accepted
  · intro moment record among
    exact absurd rfl ((alone _ (Option.mem_toList.mp among)).ne_asked moment record)

theorem Sound.down (sound : Sound place past ⟨frame, waiting, ledger⟩)
    (gains : frame.outcome.Gains asker.outcome [.asked past.length record])
    (made : record.MadeAt frame.outcome.records.size) (awaits : awaited.record = record.index)
    (blank : entered.outcome.Blank) :
    Sound (past.length :: place) (past ++ doing place [.asked past.length record])
      ⟨entered, ⟨asker, awaited⟩ :: waiting, after⟩ := by
  obtain ⟨⟨own, told, tells⟩, dated, indexed⟩ := sound
  have asked := tells.asks told dated gains made.accepted
  rw [tells.size] at made
  have index : (Waiting.mk asker awaited).awaited.record = own.entries.length :=
    awaits.trans made.index
  have last := Told.child told asked index made.accepted []
  rw [List.append_nil] at last
  exact ⟨⟨[], last, tells_blank _ blank⟩, dated.append_asked told.ahead,
    indexed.append_asked (told.inside_eq dated tells.inside) made⟩

theorem Sound.up (sound : Sound place past ⟨frame, waits :: waiting, ledger⟩)
    (takes : waits.frame.outcome.Takes frame.outcome waits.awaited.record succeeded next.outcome) :
    Sound place.tail (past ++ [⟨place, .ended succeeded⟩]) ⟨next, waiting, after⟩ := by
  obtain ⟨⟨own, told, tells⟩, dated, indexed⟩ := sound
  have ahead := told.ahead
  cases told with
  | child outer asked awaits accepted own =>
      have fresh := outer.fresh dated.of_append.of_append
      rw [awaits] at takes
      refine ⟨⟨_, ((outer.append _).append _).append _,
        asked.takes tells takes accepted fresh.1 fresh.2⟩, ?_, indexed.append_ended _ _⟩
      exact dated.append fun moment labelled => Nat.le_of_lt (ahead moment labelled)

end

theorem Sound.step {machine next : Machine} {news : History} (sound : Sound place past machine)
    (narrates : Machine.Narrates past.length place machine next news) :
    Sound (place.moved past.length machine next) (past ++ news) next := by
  cases narrates with
  | level deed? gains alone =>
      rw [Place.moved_level]
      exact sound.level gains alone
  | @atOnce frame asker later waiting ledger after record child succeeded gains made blank takes =>
      -- As if there were a frame, which ends as soon as it is asked for.
      have asked : Sound (past.length :: place) (past ++ doing place [.asked past.length record])
          ⟨{ asker with outcome := child }, ⟨asker, .creation 0 record.index 0⟩ :: waiting,
            after⟩ :=
        sound.down gains made rfl blank
      have news : asking past.length place record (some succeeded) =
          doing place [.asked past.length record] ++ [⟨past.length :: place, .ended succeeded⟩] :=
            rfl
      rw [Place.moved_level, news, ← List.append_assoc]
      exact asked.up takes
  | down gains made awaits blank =>
      rw [Place.moved_down]
      exact sound.down gains made awaits blank
  | up takes =>
      rw [Place.moved_up]
      exact sound.up takes

theorem Tells.within (tells : Tells [] past outcome) : Within [] [] past where
  elsewhere := by
    intro happening among
    cases among
  inside := tells.inside
  runs := tells.runs

/-- What was kept is kept on if the root has succeeded, and else is gone. -/
theorem Tells.kept_root (tells : Tells [] past outcome) (succeeded : Bool) {α : Type}
    {pick : Deed → Option α} (ending : ∀ flag, pick (.ended flag) = none) :
    History.kept (past ++ [⟨[], .ended succeeded⟩]) 0 pick =
      if succeeded then past.kept 1 pick else [] :=
  tells.within.kept_close ending

theorem Tells.records_root (tells : Tells [] past outcome) (succeeded : Bool) :
    History.records (past ++ [⟨[], .ended succeeded⟩]) 0 =
      if succeeded then outcome.records.toList else outcome.records.toList.map Record.reject := by
  rw [tells.records]
  exact records_close_root tells.within

theorem Tells.keeps_root (tells : Tells [] past outcome) :
    outcome.Keeps (past ++ [⟨[], .ended true⟩]) 0 where
  logs := by
    rw [tells.kept_root true fun _ => rfl]
    exact tells.keeps.logs
  deletions := by
    intro account
    rw [tells.kept_root true fun _ => rfl]
    exact tells.keeps.deletions account
  sorted := tells.keeps.sorted

theorem Tells.pools_root (tells : Tells [] past outcome) (sound : outcome.fault = none) :
    outcome.Pools (past ++ [⟨[], .ended true⟩]) 0 := by
  rw [Outcome.Pools, tells.kept_root true fun _ => rfl]
  exact tells.pools sound

/-- What the frame at work has recorded stands in its outcome where its index says. -/
theorem Sound.record_at {machine : Machine} (sound : Sound place past machine) {i : Nat}
    (made : (past.inside place).entries[i]? = some (place, record)) :
    record.index = i ∧ ∃ rejected,
    machine.frame.outcome.records[i]? = some (record.mark rejected) := by
  obtain ⟨⟨own, told, tells⟩, dated, indexed⟩ := sound
  refine ⟨indexed place i record made, ?_⟩
  rw [told.inside_eq dated tells.inside] at made
  rw [← Array.getElem?_toList, tells.records]
  exact recordsOf_getElem? own _ made

/-- When the run is over, the root tells of all that has happened. -/
theorem Sound.tells_root {machine : Machine} (sound : Sound place past machine)
    (done : machine.finished = true) : Tells [] past machine.frame.outcome := by
  obtain ⟨⟨own, told, tells⟩, -, -⟩ := sound
  obtain ⟨frame, waiting, ledger⟩ := machine
  cases waiting with
  | cons parent rest => exact absurd (Bool.and_eq_true_iff.mp done).2 Bool.false_ne_true
  | nil =>
      cases told with
      | root own => exact tells

end

namespace Chronicle

variable {environment : Environment} {root : Frame} {ledger : Ledger}

theorem next_of_finished (chronicle : Chronicle) (done : chronicle.machine.finished = true) :
    chronicle.next environment = chronicle := by
  obtain ⟨⟨frame, waiting, ledger⟩, place, past⟩ := chronicle
  obtain ⟨stopped, last⟩ := Bool.and_eq_true_iff.mp done
  cases waiting with
  | cons parent rest => cases last
  | nil =>
      have quiet : Machine.happenings environment past.length place ⟨frame, [], ledger⟩ = [] :=
        if_pos stopped
      simp only [next, Machine.next_of_finished environment _ done, quiet, Place.moved_level,
        List.append_nil]

theorem sound_after (blank : root.outcome.Blank) (steps : Nat) :
    Sound (after environment (.start root ledger) steps).place
      (after environment (.start root ledger) steps).past
      (after environment (.start root ledger) steps).machine := by
  induction steps with
  | zero => exact ⟨⟨[], .root [], tells_blank [] blank⟩, dated_nil, History.indexed_nil⟩
  | succ steps ih =>
      rw [after]
      cases done : (after environment (.start root ledger) steps).machine.finished with
      | true =>
          rw [next_of_finished _ done]
          exact ih
      | false =>
          have nested :=
            Machine.nested_of_reaches
            (Machine.runFor_reaches environment steps (.start root ledger))
          rw [← machine_after] at nested
          exact ih.step (Machine.narrates_next nested done _ _)

end Chronicle

end ContractMachine
