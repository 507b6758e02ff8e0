import ContractMachine.Proofs.Machine.Existence

/-!
Slots lie where there are accounts. Code fills slots of its own account only, and the owner of a
frame exists as long as the frame does: whoever is called or made is paid first, in the checkpoint
that the frame runs in. A contract is made where there was no account, hence where every slot is
empty.
-/

namespace ContractMachine.Machine

/-- No slot is filled where there is no account, the owner of the frame has one, and none is gone
that was there when the frame's checkpoint was opened. -/
structure Sheltered (owner : Address) (ledger below : Ledger) : Prop where
  housed : ledger.Housed
  owner : ledger.hasAccount owner = true
  grows : below.Grows ledger

section

variable {environment : Environment} {root frame : Frame} {waiting : List Waiting}
  {ledger kept after below : Ledger} {awaited : Awaited} {owner creator : Address} {price : Price}
  {machine later : Machine}

theorem Sheltered.retains (sheltered : Sheltered owner ledger below)
    (retains : ledger.Retains after) : Sheltered owner after below where
  housed := retains.housed sheltered.housed
  owner := retains.grows owner sheltered.owner
  grows := sheltered.grows.trans retains.grows

theorem Leaves.sheltered (leaves : Leaves environment frame ledger after)
    (sheltered : Sheltered frame.owner ledger below) : Sheltered frame.owner after below := by
  rcases leaves.retains with retains | ⟨key, value, rfl⟩
  · exact sheltered.retains retains
  · exact {
      housed := sheltered.housed.putSlot sheltered.owner key value
      owner := (Ledger.hasAccount_putSlot ledger frame.owner frame.owner key value).trans
        sheltered.owner
      grows := sheltered.grows.trans (Ledger.grows_putSlot ledger frame.owner key value) }

/-- A new frame is its owner's, who has just been paid. -/
theorem Enters.hasAccount_owner
    (enters : Enters environment frame ledger awaited owner kept after) :
    after.hasAccount owner = true := by
  cases enters with
  | call calls granted record => exact Ledger.hasAccount_payee _ _ _ _
  | creation creates granted free creation record gas => exact Ledger.hasAccount_payee _ _ _ _

theorem Enters.sheltered (enters : Enters environment frame ledger awaited owner kept after)
    (sheltered : Sheltered frame.owner ledger below) :
    Sheltered frame.owner kept below ∧ Sheltered owner after kept := by
  obtain ⟨before, opened⟩ := enters.retains
  have lower : Sheltered frame.owner kept below := sheltered.retains before
  exact ⟨lower, opened.housed lower.housed, enters.hasAccount_owner, opened.grows⟩

/-- What a child has left is the creator's to keep: no account is gone that lay below it. -/
theorem Sheltered.answered (inner : Sheltered owner ledger (ledger.below 1))
    (outer : Sheltered creator (ledger.below 1) below) : Sheltered creator ledger below where
  housed := inner.housed
  owner := inner.grows creator outer.owner
  grows := outer.grows.trans inner.grows

theorem sheltered_of_reaches (reached : Reaches environment (start root ledger) machine)
    (housed : ledger.Housed) (owner : ledger.hasAccount root.owner = true) :
    machine.ledger.Housed := by
  have levels :
      Levels (fun frame => Sheltered frame.owner) (fun _ => True) [] root ledger machine.frame
      machine.waiting
      machine.ledger :=
    levels_of_lives (lives_of_reaches reached) (.root (.refl root)) ?step
      ⟨housed, owner, fun _ here => here⟩
  case step =>
    intro middle nested runs
    refine (alters_next nested runs).carries Sheltered (fun _ => True) ?level ?down ?up
    case level => exact fun leaves sheltered => leaves.sheltered sheltered
    case down => exact fun enters sheltered => ⟨trivial, enters.sheltered sheltered⟩
    case up =>
      intro awaited child owner creator ledger below _ inner outer
      have written := awaited.retains_written environment ledger child
      exact (inner.answered outer).retains (written.trans (Ledger.retains_commit _))
  obtain ⟨_, sheltered⟩ := levels.here
  exact sheltered.housed

/-- A creation fills no slot itself. -/
theorem Makes.retains (makes : Makes environment frame waiting ledger later) :
    ledger.Retains later.ledger := by
  have atOnce {child : Outcome} {site : Site}
      (settled : site = SiteAction.settledAtOnce environment (Creation.asked frame) child
        (Creation.creator frame) ledger) : ledger.Retains site.ledger := by
    rw [settled]
    exact SiteAction.retains_settledAtOnce environment _ ledger _ child
  cases makes with
  | refused refused => exact .refl ledger
  | collided granted inUse settled => exact atOnce settled
  | passed granted free empty settled => exact atOnce settled
  | @entered granted free code creator ready creation asked =>
      exact (Ledger.retains_bumpNonce ledger creator.owner).trans
        (creation.retains_opened creator ledger)

/-- Where a contract is made every slot is empty, before and after. -/
theorem slots_of_new_contract (creates : machine.frame.Creates environment machine.ledger price)
    (housed : machine.ledger.Housed)
    (free : machine.ledger.hasAccount (Creation.address machine.frame machine.ledger) = false)
    (key : Word) :
    machine.ledger.slot? (Creation.address machine.frame machine.ledger) key = none ∧
      (machine.next environment).ledger.slot? (Creation.address machine.frame machine.ledger) key =
        none := by
  have empty := housed.empty free key
  have makes := makes_next machine.waiting creates
  exact ⟨empty, (makes.retains.slots _ key).trans empty⟩

end

end ContractMachine.Machine
