import RavenCash.Lib.Simulation
import RavenCash.Validation.Tip

/-!
# From `ProcessNewBlock` to the active chain

A block object carries the flag `fChecked`, which `CheckBlock` sets when it passes and which makes
every later `CheckBlock` on the same object pass at once, whatever height it is given. The callers
before the block has a place in the chain (`FillBlock`, `ProcessNewBlock`, `AcceptBlock`) give it the
height that the header claims; `ConnectBlock` gives it the real one. `ConnectTip` connects either the
object that is still in memory or a fresh copy read from the block files.

Which block is connected or disconnected next is `ActivateBestChain`'s choice by work and is left
open here, as is the order in which blocks arrive: a run is any sequence of these events. What only
refuses a block (its header, its place in the tree) is left out.
-/

set_option autoImplicit false

namespace RavenCash

/-- A `CBlock` in memory: the block, the height its header claims, and `fChecked`. -/
structure BlockObject where
  block : CBlock
  nHeight : UInt32
  fChecked : Bool := false
deriving DecidableEq, Repr

/-- The header's `uint32_t` as the argument `int nHeight`. -/
def BlockObject.claimedHeight (pblock : BlockObject) : Int := pblock.nHeight.toInt32.toInt

/-- A block of the active chain, with the undo data written for it. -/
structure ConnectedBlock where
  block : CBlock
  nHeight : Int
  vtxundo : List CTxUndo

/-- The node: the blocks in memory, the block files, the active chain from the tip down, and the
state at the tip. -/
structure BlockNode where
  objects : List BlockObject := []
  blockFiles : StdMap UInt256 CBlock := ∅
  chainActive : List ConnectedBlock := []
  state : NodeState := {}

/-- The height of the next block. -/
def BlockNode.nextHeight (n : BlockNode) : Int :=
  match n.chainActive with
  | [] => 0
  | tip :: _ => tip.nHeight + 1

inductive BlockEvent where
  /-- A block is read from the network into a new object. -/
  | receive (block : CBlock) (nHeight : UInt32)
  /-- `FillBlock` has put together a compact block. -/
  | fillBlock (object : Nat)
  | processNewBlock (object : Nat)
  /-- `ConnectTip` with `pblock`. -/
  | connectObject (object : Nat) (maps : MempoolMaps)
  /-- `ConnectTip` without `pblock`, which reads the block from disk. -/
  | connectStored (hash : UInt256) (maps : MempoolMaps)
  | disconnectTip

section

variable [NodeCrypto] (params : CAssetParams)

/-! ## The block object -/

/-- `CheckBlock` on a block object, with both flags set. -/
def BlockObject.checkBlock (pblock : BlockObject) (nHeight : Int) :
    Except CValidationError BlockObject :=
  if pblock.fChecked then .ok pblock
  else do
    RavenCash.checkBlock params pblock.block nHeight
    return { pblock with fChecked := true }

/-- `ConnectBlock` on a block object. -/
def BlockObject.connectBlock (pblock : BlockObject) (maps : MempoolMaps) (g : Globals)
    (nHeight : Int) : Checked ChainState CValidationError (List CTxUndo) := do
  let pblock ← .lift (pblock.checkBlock params nHeight)
  connectChecked params maps g pblock.block nHeight

/-! ## Events -/

/-- `ConnectTip` on a block object, at the next height. -/
def BlockNode.connectTip (n : BlockNode) (pblock : BlockObject) (maps : MempoolMaps) :
    Except CValidationError BlockNode :=
  match pblock.connectBlock params maps n.state.g n.nextHeight ⟨n.state.pcoinsTip, ⟨{}, n.state.lru⟩⟩
    with
  | (.ok vtxundo, s) =>
      .ok { n with
        chainActive := ⟨pblock.block, n.nextHeight, vtxundo⟩ :: n.chainActive
        state :=
          { g := n.state.g.flush s.assets.cache, lru := s.assets.lru, pcoinsTip := s.view } }
  | (.error e, _) => .error e

/-- `CheckBlock` on an object in memory with the height its header claims. -/
def BlockNode.checkClaimed (n : BlockNode) (object : Nat) : Except CValidationError BlockNode :=
  match n.objects[object]? with
  | none => .ok n
  | some pblock => do
      let pblock ← pblock.checkBlock params pblock.claimedHeight
      return { n with objects := n.objects.set object pblock }

/-- `AcceptBlock` after the header: a block that the files do not have is checked and written to them. -/
def BlockNode.acceptBlock (n : BlockNode) (object : Nat) : Except CValidationError BlockNode :=
  match n.objects[object]? with
  | none => return n
  | some pblock =>
      -- `fAlreadyHave`
      if (n.blockFiles.lookup pblock.block.hash).isSome then return n
      else do
        let n ← n.checkClaimed params object
        return { n with blockFiles := n.blockFiles.insert pblock.block.hash pblock.block }

/-- `ProcessNewBlock` up to `ActivateBestChain`. -/
def BlockNode.processNewBlock (n : BlockNode) (object : Nat) : Except CValidationError BlockNode := do
  let n ← n.checkClaimed params object
  n.acceptBlock params object

/-- One event; an error leaves the node as it was. -/
def BlockNode.handle (n : BlockNode) : BlockEvent → Except CValidationError BlockNode
  | .receive block nHeight => return { n with objects := n.objects ++ [⟨block, nHeight, false⟩] }
  | .fillBlock object => n.checkClaimed params object
  | .processNewBlock object => n.processNewBlock params object
  | .connectObject object maps =>
      match n.objects[object]? with
      | none => return n
      -- `ActivateBestChain` is given a block after `ProcessNewBlock` has accepted it
      | some pblock => if pblock.fChecked then n.connectTip params pblock maps else return n
  | .connectStored hash maps =>
      match n.blockFiles.lookup hash with
      | none => return n
      | some block => n.connectTip params ⟨block, 0, false⟩ maps
  | .disconnectTip =>
      match n.chainActive with
      | [] => return n
      | tip :: chain =>
          match RavenCash.disconnectTip n.state tip.block tip.nHeight tip.vtxundo with
          | none => return n
          | some state => return { n with chainActive := chain, state := state }

def BlockNode.step (n : BlockNode) (event : BlockEvent) : BlockNode :=
  match n.handle params event with
  | .ok n => n
  | .error _ => n

/-! ## The founder payment -/

/-- The script that the founder is paid with. -/
def founderScript : CScript :=
  getScriptForDestination (NodeCrypto.decodeDestination params.nFounderPayment.founderAddress)

/-- What a block at this height owes the founder. -/
def founderDue (nHeight : Int) : Option CAmount :=
  let founderReward :=
    params.nFounderPayment.getFounderPaymentAmount (nHeight - 1) (getBlockSubsidy (nHeight - 1))
  if params.nFounderPayment.startBlock < nHeight - 1 ∧ founderReward ≠ 0 then some founderReward
  else none

/-- **The coinbase pays the founder** what a block at this height owes. -/
def CBlock.PaysFounder (block : CBlock) (nHeight : Int) : Prop :=
  ∀ founderReward ∈ founderDue params nHeight, ∃ coinbase ∈ block.vtx.head?, ∃ out ∈ coinbase.vout,
    out.scriptPubKey = founderScript params ∧ founderReward ≤ out.nValue

instance (block : CBlock) (nHeight : Int) : Decidable (block.PaysFounder params nHeight) :=
  Option.decidableForallMem (founderDue params nHeight)

/-- A block at the claimed height owes at least what one at the real height does. -/
def FounderDueCovered (claimed real : Int) : Prop :=
  ∀ founderReward ∈ founderDue params real, ∃ claimedReward ∈ founderDue params claimed,
    founderReward ≤ claimedReward

-- not by search: the amounts are a finite type, and their number is `2 ^ 64`
instance (claimed real : Int) : Decidable (FounderDueCovered params claimed real) :=
  @Option.decidableForallMem _ _ (fun _ => Option.decidableExistsMem (founderDue params claimed))
    (founderDue params real)

/-- A block connected from the object in memory claims a height at which the founder is owed no less
than at its real one. -/
def BlockNode.ClaimsCover (n : BlockNode) : BlockEvent → Prop
  | .connectObject object _ =>
      ∀ pblock ∈ n.objects[object]?, FounderDueCovered params pblock.claimedHeight n.nextHeight
  | _ => True

instance (n : BlockNode) (event : BlockEvent) : Decidable (n.ClaimsCover params event) :=
  match event with
  | .connectObject object _ => inferInstanceAs (Decidable (∀ pblock ∈ n.objects[object]?,
      FounderDueCovered params pblock.claimedHeight n.nextHeight))
  | .receive _ _ | .fillBlock _ | .processNewBlock _ | .connectStored _ _ | .disconnectTip =>
      inferInstanceAs (Decidable True)

variable {params}

/-! ## What `CheckBlock` has seen -/

/-- **A checked coinbase pays the founder** what a block at the height of the check owes. -/
theorem paysFounder_of_checkCoinBase {tx : CTransaction} {nHeight : Int} {u : Unit}
    (h : checkCoinBase params tx (nHeight - 1) (getBlockSubsidy (nHeight - 1)) = .ok u) :
    ∀ founderReward ∈ founderDue params nHeight, ∃ out ∈ tx.vout,
      out.scriptPubKey = founderScript params ∧ founderReward ≤ out.nValue := by
  intro founderReward hdue
  unfold checkCoinBase at h
  simp only [bind_ok, failIf_ok] at h
  obtain ⟨_, _, _, _, _, hpayee, _⟩ := h
  rw [Option.mem_def, founderDue] at hdue
  split_ifs at hdue with howed
  obtain ⟨hstarted, hnonzero⟩ := howed
  have hvalid : params.nFounderPayment.isBlockPayeeValid tx (nHeight - 1)
      (getBlockSubsidy (nHeight - 1)) = true := by
    simpa [hstarted, hnonzero] using hpayee
  unfold FounderPayment.isBlockPayeeValid at hvalid
  rw [List.any_eq_true] at hvalid
  obtain ⟨out, hmem, hout⟩ := hvalid
  rw [Bool.and_eq_true, beq_iff_eq, decide_eq_true_eq] at hout
  refine ⟨out, hmem, hout.1, ?_⟩
  rw [← Option.some.inj hdue]
  exact hout.2

theorem paysFounder_of_checkBlock {block : CBlock} {nHeight : Int} {u : Unit}
    (h : RavenCash.checkBlock params block nHeight = .ok u) : block.PaysFounder params nHeight := by
  unfold RavenCash.checkBlock at h
  simp only [bind_ok, failIf_ok] at h
  obtain ⟨_, _, _, hfirst, _, _, htxs⟩ := h
  intro founderReward hdue
  cases hvtx : block.vtx with
  | nil => simp [hvtx] at hfirst
  | cons coinbase vtx =>
      have hcoinbase : coinbase.isCoinBase = true := by simpa [hvtx] using hfirst
      have htx := checkAll_ok.mp htxs coinbase (by rw [hvtx]; exact List.mem_cons_self)
      rw [mapError_ok] at htx
      obtain ⟨_, _, _, _, _, hin, _⟩ := checkTransaction_ok htx
      rw [checkInputOutPoints, if_pos hcoinbase] at hin
      exact ⟨coinbase, rfl, paysFounder_of_checkCoinBase hin founderReward hdue⟩

/-- A block that pays at the claimed height pays at a real height that owes no more. -/
theorem CBlock.PaysFounder.of_covered {block : CBlock} {claimed real : Int}
    (hpays : block.PaysFounder params claimed) (hcover : FounderDueCovered params claimed real) :
    block.PaysFounder params real := by
  intro founderReward hdue
  obtain ⟨claimedReward, hclaimed, hle⟩ := hcover founderReward hdue
  obtain ⟨coinbase, hhead, out, hmem, hscript, hvalue⟩ := hpays claimedReward hclaimed
  exact ⟨coinbase, hhead, out, hmem, hscript, Int64.le_trans hle hvalue⟩

theorem BlockObject.checkBlock_ok {pblock pblock' : BlockObject} {nHeight : Int} :
    pblock.checkBlock params nHeight = .ok pblock' ↔
      pblock' = { pblock with fChecked := true } ∧
        (pblock.fChecked = true ∨ RavenCash.checkBlock params pblock.block nHeight = .ok ()) := by
  unfold BlockObject.checkBlock
  split_ifs with hchecked
  · rw [Except.ok.injEq]
    constructor
    · rintro rfl
      refine ⟨?_, Or.inl hchecked⟩
      rw [← hchecked]
    · rintro ⟨rfl, _⟩
      rw [← hchecked]
  · rw [bind_ok]
    constructor
    · rintro ⟨_, hpassed, h⟩
      exact ⟨(pure_ok.mp h).symm, Or.inr hpassed⟩
    · rintro ⟨rfl, h⟩
      exact ⟨(), h.resolve_left hchecked, rfl⟩

/-! ## The invariant -/

/-- What holds in every state of the node: a checked object pays at the height it claims, and the
blocks of the active chain pay at their own. -/
structure BlockNode.FounderPaid (params : CAssetParams) (n : BlockNode) : Prop where
  objects : ∀ pblock ∈ n.objects, pblock.fChecked = true →
    pblock.block.PaysFounder params pblock.claimedHeight
  chain : ∀ pindex ∈ n.chainActive, pindex.block.PaysFounder params pindex.nHeight

theorem BlockNode.founderPaid_empty : BlockNode.FounderPaid params {} :=
  ⟨fun _ h _ => (by cases h), fun _ h => by cases h⟩

/-- Running `CheckBlock` with the claimed height keeps the invariant. -/
theorem BlockNode.FounderPaid.checkClaimed {n n' : BlockNode} {object : Nat}
    (hn : n.FounderPaid params) (h : n.checkClaimed params object = .ok n') :
    n'.FounderPaid params := by
  unfold BlockNode.checkClaimed at h
  cases hobject : n.objects[object]? with
  | none =>
      rw [hobject] at h
      cases h
      exact hn
  | some pblock =>
      rw [hobject] at h
      obtain ⟨pblock', hcheck, h⟩ := bind_ok.mp h
      cases pure_ok.mp h
      obtain ⟨rfl, hpassed⟩ := BlockObject.checkBlock_ok.mp hcheck
      have hpays : pblock.block.PaysFounder params pblock.claimedHeight := by
        rcases hpassed with hchecked | hpassed
        · exact hn.objects pblock (List.mem_of_getElem? hobject) hchecked
        · exact paysFounder_of_checkBlock hpassed
      refine ⟨fun other hother hchecked => ?_, hn.chain⟩
      rcases List.mem_or_eq_of_mem_set hother with hold | rfl
      · exact hn.objects other hold hchecked
      · exact hpays

theorem BlockNode.FounderPaid.acceptBlock {n n' : BlockNode} {object : Nat}
    (hn : n.FounderPaid params) (h : n.acceptBlock params object = .ok n') :
    n'.FounderPaid params := by
  unfold BlockNode.acceptBlock at h
  split at h
  · cases h
    exact hn
  · split_ifs at h
    · cases h
      exact hn
    · obtain ⟨n₁, hcheck, h⟩ := bind_ok.mp h
      cases pure_ok.mp h
      have hn₁ := hn.checkClaimed hcheck
      exact ⟨hn₁.objects, hn₁.chain⟩

/-- Connecting a block that pays at the next height keeps the invariant. -/
theorem BlockNode.FounderPaid.connectTip {n n' : BlockNode} {pblock : BlockObject}
    {maps : MempoolMaps} (hn : n.FounderPaid params)
    (hpays : pblock.fChecked = true → pblock.block.PaysFounder params n.nextHeight)
    (h : n.connectTip params pblock maps = .ok n') : n'.FounderPaid params := by
  unfold BlockNode.connectTip at h
  split at h
  · next vtxundo s hconnect =>
      obtain ⟨pblock', hcheck, _⟩ := Checked.lift_bind_ok.mp hconnect
      obtain ⟨_, hpassed⟩ := BlockObject.checkBlock_ok.mp hcheck
      cases h
      refine ⟨hn.objects, fun pindex hpindex => ?_⟩
      rcases List.mem_cons.mp hpindex with rfl | hold
      · exact hpassed.elim hpays paysFounder_of_checkBlock
      · exact hn.chain pindex hold
  · cases h

/-- **One event keeps the invariant**, if a block connected from memory claims enough. -/
theorem BlockNode.FounderPaid.handle {n n' : BlockNode} {event : BlockEvent}
    (hn : n.FounderPaid params) (hcover : n.ClaimsCover params event)
    (h : n.handle params event = .ok n') : n'.FounderPaid params := by
  cases event with
  | receive block nHeight =>
      cases h
      refine ⟨fun pblock hmem hchecked => ?_, hn.chain⟩
      rcases List.mem_append.mp hmem with hold | hnew
      · exact hn.objects pblock hold hchecked
      · cases List.mem_singleton.mp hnew
        cases hchecked
  | fillBlock object => exact hn.checkClaimed h
  | processNewBlock object =>
      obtain ⟨n₁, hcheck, haccept⟩ := bind_ok.mp h
      exact (hn.checkClaimed hcheck).acceptBlock haccept
  | connectObject object maps =>
      simp only [BlockNode.handle] at h
      cases hobject : n.objects[object]? with
      | none =>
          rw [hobject] at h
          cases h
          exact hn
      | some pblock =>
          rw [hobject] at h
          simp only at h
          split_ifs at h
          · refine hn.connectTip (fun hchecked => ?_) h
            have hpays := hn.objects pblock (List.mem_of_getElem? hobject) hchecked
            exact hpays.of_covered (hcover pblock hobject)
          · cases h
            exact hn
  | connectStored hash maps =>
      simp only [BlockNode.handle] at h
      cases hstored : n.blockFiles.lookup hash with
      | none =>
          rw [hstored] at h
          cases h
          exact hn
      | some block =>
          rw [hstored] at h
          exact hn.connectTip (fun hchecked => by cases hchecked) h
  | disconnectTip =>
      simp only [BlockNode.handle] at h
      cases hchain : n.chainActive with
      | nil =>
          rw [hchain] at h
          cases h
          exact hn
      | cons tip chain =>
          rw [hchain] at h
          simp only at h
          split at h
          · cases h
            exact hn
          · cases h
            refine ⟨hn.objects, fun pindex hpindex => hn.chain pindex ?_⟩
            rw [hchain]
            exact List.mem_cons_of_mem _ hpindex

theorem BlockNode.FounderPaid.step {n : BlockNode} {event : BlockEvent} (hn : n.FounderPaid params)
    (hcover : n.ClaimsCover params event) : (n.step params event).FounderPaid params := by
  unfold BlockNode.step
  split
  · next n' h => exact hn.handle hcover h
  · exact hn

/-- **The founder is paid in every run** in which each block that is connected from the object in
memory claims a height at which the founder is owed no less than at its real one. -/
theorem chain_paysFounder (params : CAssetParams) (events : List BlockEvent)
    (hcover : Simulation.Throughout (BlockNode.step params) (BlockNode.ClaimsCover params) {} events) :
    ∀ pindex ∈ (Simulation.exec (BlockNode.step params) {} events).chainActive,
      pindex.block.PaysFounder params pindex.nHeight := by
  have hpaid := Simulation.exec_invariant (I := BlockNode.FounderPaid params)
    (fun n event hn hevent => hn.step hevent) BlockNode.founderPaid_empty hcover
  exact hpaid.chain

end

/-! ## Runs -/

section

attribute [local instance] mainnetCrypto

/-- A block arrives, is processed and is connected from memory. -/
def arrive (object : Nat) (block : CBlock) (nHeight : UInt32) : List BlockEvent :=
  [.receive block nHeight, .processNewBlock object, .connectObject object {}]

/-- The genesis block and three more, each with the height it claims. -/
def fourBlocks (claimed : UInt32) (last : CTransaction) : List BlockEvent :=
  arrive 0 ⟨10, [coinbaseTx 20]⟩ 0 ++ arrive 1 ⟨11, [coinbaseTx 21]⟩ 1 ++
    arrive 2 ⟨12, [coinbaseTx 22]⟩ 2 ++ arrive 3 ⟨13, [last]⟩ claimed

/-- A coinbase that keeps everything for the miner. -/
def selfishCoinbaseTx : CTransaction :=
  { coinbaseTx 23 with vout := [⟨100 * COIN, payScript⟩] }

theorem chain_paysFounder_fourBlocks :
    (Simulation.exec (BlockNode.step mainAssetParams) {} (fourBlocks 3 (coinbaseTx 23))).chainActive.map
        ConnectedBlock.nHeight = [3, 2, 1, 0] ∧
      ∀ pindex ∈ (Simulation.exec (BlockNode.step mainAssetParams) {}
          (fourBlocks 3 (coinbaseTx 23))).chainActive,
        pindex.block.PaysFounder mainAssetParams pindex.nHeight :=
  ⟨by decide +kernel, chain_paysFounder mainAssetParams _ (by decide +kernel)⟩

/-- **A block that claims height `0` skips the founder**: it is the fourth block of the chain. -/
theorem selfish_block_connected :
    (Simulation.exec (BlockNode.step mainAssetParams) {}
        (fourBlocks 0 selfishCoinbaseTx)).chainActive.map
      (fun pindex => (pindex.block, pindex.nHeight,
        decide (pindex.block.PaysFounder mainAssetParams pindex.nHeight))) =
      [(⟨13, [selfishCoinbaseTx]⟩, 3, false), (⟨12, [coinbaseTx 22]⟩, 2, true),
        (⟨11, [coinbaseTx 21]⟩, 1, true), (⟨10, [coinbaseTx 20]⟩, 0, true)] := by
  decide +kernel

end

end RavenCash
