import RavenCash.PrivateSend.Mixing

/-!
# The signatures of a mixing session

`IsInputScriptSigValid` verifies a signature against `prevPubKey` of the input. The field is not serialized and
`AddEntry` does not fill it in, so for an entry from the network the script is empty, and pushing one byte satisfies it.
As long as an input of the session is unsigned, any peer can have it marked as signed.
-/

set_option autoImplicit false

namespace RavenCash.PrivateSend

open Simulation

namespace CPrivateSendServer

/-- The input is in the final transaction with this signature, which satisfies the script of the coin that it spends. -/
def Signed [ScriptVerifier] (s : CPrivateSendServer) (txin : CTxIn) : Prop :=
  ∃ nIn input, s.finalVin[nIn]? = some input ∧ input.prevout = txin.prevout ∧ input.scriptSig = txin.scriptSig ∧
    ∃ spent ∈ s.accepted.flatMap fun a => a.vecTxIn.zip a.coins, spent.1.prevout = txin.prevout ∧
      ScriptVerifier.verifyScript txin.scriptSig spent.2.scriptPubKey s.finalVin s.finalVout nIn = true

/-- The session waits for a signature of this input. -/
def Unsigned (s : CPrivateSendServer) (txin : CTxIn) : Prop :=
  ∃ entry ∈ s.vecEntries, ∃ txdsin ∈ entry.vecTxDSIn, spends txdsin.toCTxIn = spends txin ∧ txdsin.fHasSig = false

/-- `AddScriptSig` accepts worthy signatures only, and all of them. -/
def SignaturesChecked [ScriptVerifier] (s : CPrivateSendServer) : Prop :=
  ∀ txin, ((s.addScriptSig txin).1 = true → Signed (s.addScriptSig txin).2 txin) ∧
    (s.Unsigned txin → Signed (s.setFinalSig txin) txin → (s.addScriptSig txin).1 = true)

theorem addSigToInputs_isSome {txin : CTxIn} {l : List CTxDSIn} {txdsin : CTxDSIn} (hmem : txdsin ∈ l)
    (hspends : spends txdsin.toCTxIn = spends txin) (hsig : txdsin.fHasSig = false)
    (hnodup : (l.map fun txdsin => txdsin.prevout).Nodup) : (addSigToInputs txin l).isSome = true := by
  simp only [spends, Prod.mk.injEq] at hspends
  induction l with
  | nil => cases hmem
  | cons head l ih =>
    rw [List.map_cons, List.nodup_cons] at hnodup
    rcases List.mem_cons.mp hmem with rfl | hmem
    · simp [addSigToInputs, hspends, hsig]
    · have hne : head.prevout ≠ txin.prevout := by
        intro heq
        exact hnodup.1 (List.mem_map.mpr ⟨txdsin, hmem, hspends.1.trans heq.symm⟩)
      simp [addSigToInputs, hne, ih hmem hnodup.2]

theorem addSigToEntries_isSome {txin : CTxIn} {entries : List CPrivateSendEntry} {entry : CPrivateSendEntry}
    (hmem : entry ∈ entries) (hsome : (addSigToInputs txin entry.vecTxDSIn).isSome = true) :
    (addSigToEntries txin entries).isSome = true := by
  induction entries with
  | nil => cases hmem
  | cons head entries ih =>
    rw [addSigToEntries]
    split
    · rfl
    · rename_i hnone
      rcases List.mem_cons.mp hmem with rfl | hmem
      · simp [hnone] at hsome
      · simp [ih hmem]

theorem addSigToInputs_signed {txin : CTxIn} {l : List CTxDSIn} (h : ∀ txdsin ∈ l, txdsin.fHasSig = true) :
    addSigToInputs txin l = none := by
  induction l with
  | nil => rfl
  | cons head l ih =>
    have := h head List.mem_cons_self
    simp [addSigToInputs, this, ih fun txdsin hmem => h txdsin (List.mem_cons_of_mem _ hmem)]

theorem addSigToEntries_signed {txin : CTxIn} {entries : List CPrivateSendEntry}
    (h : ∀ entry ∈ entries, ∀ txdsin ∈ entry.vecTxDSIn, txdsin.fHasSig = true) :
        addSigToEntries txin entries = none := by
  induction entries with
  | nil => rfl
  | cons head entries ih =>
    simp [addSigToEntries, addSigToInputs_signed (h head List.mem_cons_self),
      ih fun entry hmem => h entry (List.mem_cons_of_mem _ hmem)]

/-! ## A session from the network -/

theorem Valid.prevPubKey {s : CPrivateSendServer} (hs : s.Valid) :
    ∀ entry ∈ s.vecEntries, ∀ txdsin ∈ entry.vecTxDSIn, txdsin.prevPubKey = [] := by
  intro entry hmem
  obtain ⟨i, hi, rfl⟩ := List.getElem_of_mem hmem
  exact (hs.entries.get hi (hs.entries.length_eq ▸ hi)).prevPubKey

theorem Valid.findInput {s : CPrivateSendServer} (hs : s.Valid) {entry : CPrivateSendEntry} {txdsin : CTxDSIn}
    (hentry : entry ∈ s.vecEntries) (hmem : txdsin ∈ entry.vecTxDSIn) :
    ∃ nTxInIndex, findInput txdsin.prevout s.vecEntries = some (nTxInIndex, []) := by
  have hall : txdsin ∈ s.vecEntries.flatMap CPrivateSendEntry.vecTxDSIn := List.mem_flatMap.mpr ⟨entry, hentry, hmem⟩
  have hsome : (((s.vecEntries.flatMap CPrivateSendEntry.vecTxDSIn).zipIdx.reverse).find?
      fun p => p.1.prevout == txdsin.prevout).isSome = true := by
    obtain ⟨i, hi, hget⟩ := List.getElem_of_mem hall
    rw [List.find?_isSome]
    refine ⟨(txdsin, i), List.mem_reverse.mpr ?_, by simp⟩
    exact List.mk_mem_zipIdx_iff_getElem?.mpr (List.getElem?_eq_some_iff.mpr ⟨hi, hget⟩)
  obtain ⟨⟨found, i⟩, hfound⟩ := Option.isSome_iff_exists.mp hsome
  have hin := List.mem_reverse.mp (List.mem_of_find?_eq_some hfound)
  obtain ⟨entry', hentry', hmem'⟩ := List.mem_flatMap.mp (List.fst_mem_of_mem_zipIdx hin)
  exact ⟨i, by simp [CPrivateSendServer.findInput, hfound, hs.prevPubKey entry' hentry' found hmem']⟩

theorem Valid.inputs_length {s : CPrivateSendServer} (hs : s.Valid) : (inputs s.vecEntries).length ≤ 45 := by
  have hspends := congrArg List.length (inputs_spends hs.entries)
  rw [List.length_map, List.length_map] at hspends
  have hbound : ∀ accepted : List AcceptedEntry, (∀ a ∈ accepted, a.Checked s.nSessionDenom) →
      (acceptedInputs accepted).length ≤ accepted.length * PRIVATESEND_ENTRY_MAX_SIZE := by
    intro accepted h
    rw [acceptedInputs, List.length_flatMap]
    refine (List.sum_le_card_nsmul _ PRIVATESEND_ENTRY_MAX_SIZE ?_).trans (by simp)
    intro n hn
    obtain ⟨a, ha, rfl⟩ := List.mem_map.mp hn
    exact (h a ha).inputs_le
  have := hbound s.accepted hs.checked
  have hpart := hs.participants.2.2
  simp only [PRIVATESEND_ENTRY_MAX_SIZE, nPoolMaxParticipants] at this hpart
  omega

/-- There are more bytes to push than there are inputs. -/
theorem exists_unused_push {l : List CScript} (h : l.length ≤ 45) :
    ∃ b : UInt8, b ≠ 0 ∧ b ≠ 0x80 ∧ ([0x01, b] : CScript) ∉ l := by
  have hbytes : ∀ i < 46, UInt8.ofNat (i + 1) ≠ 0 ∧ UInt8.ofNat (i + 1) ≠ 0x80 := by decide
  have hnodup : ((List.range 46).map fun i => ([0x01, UInt8.ofNat (i + 1)] : CScript)).Nodup := by decide +kernel
  by_contra hall
  push Not at hall
  have hsub : ((List.range 46).map fun i => ([0x01, UInt8.ofNat (i + 1)] : CScript)) ⊆ l := by
    intro script hscript
    obtain ⟨i, hi, rfl⟩ := List.mem_map.mp hscript
    obtain ⟨hzero, hnegZero⟩ := hbytes i (List.mem_range.mp hi)
    exact hall _ hzero hnegZero
  have hle := (hnodup.subperm hsub).length_le
  rw [List.length_map, List.length_range] at hle
  omega

theorem Valid.nodup_entry {s : CPrivateSendServer} (hs : s.Valid) {entry : CPrivateSendEntry}
    (hentry : entry ∈ s.vecEntries) : (entry.vecTxDSIn.map fun txdsin => txdsin.prevout).Nodup := by
  have hnodup := hs.distinct
  rw [← map_prevout (inputs_spends hs.entries), inputs, List.map_flatMap, List.nodup_flatMap] at hnodup
  simpa [Function.comp_def] using hnodup.1 entry hentry

section

variable [ScriptVerifier]

theorem addScriptSig_accepted {s : CPrivateSendServer} {txin : CTxIn} : (s.addScriptSig txin).2.accepted =
    s.accepted := by
  simp only [addScriptSig]
  split_ifs
  · rfl
  · rfl
  · split <;> rfl

/-- Every unsigned input takes some signature of one pushed byte. -/
theorem Valid.addScriptSig_push {s : CPrivateSendServer} (hs : s.Valid) {entry : CPrivateSendEntry} {txdsin : CTxDSIn}
    (hentry : entry ∈ s.vecEntries) (hmem : txdsin ∈ entry.vecTxDSIn) (hsig : txdsin.fHasSig = false) :
    ∃ b : UInt8, (s.addScriptSig ⟨txdsin.prevout, [0x01, b], txdsin.nSequence⟩).1 = true := by
  obtain ⟨b, hzero, hnegZero, hnew⟩ := @exists_unused_push ((inputs s.vecEntries).map CTxIn.scriptSig)
    (by rw [List.length_map]; exact hs.inputs_length)
  refine ⟨b, ?_⟩
  obtain ⟨nTxInIndex, hfind⟩ := hs.findInput hentry hmem
  have hexists : ((inputs s.vecEntries).any fun input => input.scriptSig == [0x01, b]) = false := by
    rw [List.any_eq_false]
    intro input hinput
    simp only [beq_iff_eq]
    intro heq
    exact hnew (List.mem_map.mpr ⟨input, hinput, heq⟩)
  have hvalid : s.isInputScriptSigValid ⟨txdsin.prevout, [0x01, b], txdsin.nSequence⟩ = true := by
    simp only [isInputScriptSigValid, hfind]
    exact ScriptVerifier.verify_push b _ _ _ hzero hnegZero
  have hsome := addSigToEntries_isSome hentry
    (@addSigToInputs_isSome ⟨txdsin.prevout, [0x01, b], txdsin.nSequence⟩ _ _ hmem rfl hsig (hs.nodup_entry hentry))
  obtain ⟨entries, hentries⟩ := Option.isSome_iff_exists.mp hsome
  simp [CPrivateSendServer.addScriptSig, hexists, hvalid, hentries]

/-- No coin of the session can be spent by pushing one byte. -/
theorem Valid.not_signed_push {s t : CPrivateSendServer} (hs : s.Valid) (haccepted : t.accepted = s.accepted)
    {txin : CTxIn}
    {b : UInt8} (hsig : txin.scriptSig = [0x01, b]) : ¬t.Signed txin := by
  rintro ⟨nIn, input, -, -, -, spent, hspent, -, hverify⟩
  rw [haccepted] at hspent
  obtain ⟨a, ha, hspent⟩ := List.mem_flatMap.mp hspent
  have hscript := (hs.checked a ha).pubKeyHash_coins spent.2 (List.of_mem_zip hspent).2
  rw [hsig, ScriptVerifier.verify_push_pubKeyHash b _ _ _ _ hscript] at hverify
  cases hverify

/-- In every run, signatures are checked only where nothing is left to sign. -/
theorem signaturesChecked_iff (ops : List (MixingEnv × MixingOp)) :
    (exec step ({} : CPrivateSendServer) ops).SignaturesChecked ↔
      (exec step ({} : CPrivateSendServer) ops).isSignaturesComplete = true := by
  have hs := valid_exec ops
  generalize exec step ({} : CPrivateSendServer) ops = s at hs
  simp only [isSignaturesComplete, List.all_eq_true]
  constructor
  · intro hchecked entry hentry txdsin hmem
    by_contra hsig
    obtain ⟨b, htrue⟩ := hs.addScriptSig_push hentry hmem (Bool.not_eq_true _ ▸ hsig)
    exact hs.not_signed_push addScriptSig_accepted rfl ((hchecked _).1 htrue)
  · intro hcomplete txin
    constructor
    · -- no entry takes another signature
      intro htrue
      simp only [addScriptSig, addSigToEntries_signed hcomplete] at htrue
      split_ifs at htrue
    · rintro ⟨entry, hentry, txdsin, hmem, -, hsig⟩
      rw [hcomplete entry hentry txdsin hmem] at hsig
      cases hsig

end

/-! ## A worthless signature -/

/-- In the signing state any peer can sign the input of the first participant with the script that pushes a one. -/
theorem worthless_signature_accepted :
    letI := pushVerifier
    let s := exec step ({} : CPrivateSendServer) mixingSession
    s.nState = .POOL_STATE_SIGNING ∧ (s.addScriptSig ⟨⟨1, 0⟩, [0x01, 0x01], 0xffffffff⟩).1 = true ∧
      ¬(s.addScriptSig ⟨⟨1, 0⟩, [0x01, 0x01], 0xffffffff⟩).2.Signed ⟨⟨1, 0⟩, [0x01, 0x01], 0xffffffff⟩ := by
  let _ := pushVerifier
  refine ⟨by decide +kernel, by decide +kernel, ?_⟩
  exact (valid_exec mixingSession).not_signed_push addScriptSig_accepted rfl

end CPrivateSendServer

end RavenCash.PrivateSend
