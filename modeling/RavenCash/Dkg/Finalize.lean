import Mathlib.Data.List.ReduceOption
import RavenCash.Dkg.Safety

/-!
# Final commitments

`CDKGSession::FinalizeCommitments`: the valid commitments are put together by their valid members. A group that is large
enough gives a final commitment with the content of its first commitment, the one with the lowest hash; commitments with
another key or vector hash are left out after the group has been counted. The sizes are those of the parameters of now,
and the commitments may have been received under others.
-/

set_option autoImplicit false

namespace RavenCash.Evo.Llmq

open CDKGSession

/-! ## The order of the messages -/

theorem leNat_inj {l l' : List UInt8} (hlength : l.length = l'.length) (h : leNat l = leNat l') : l = l' := by
  induction l generalizing l' with
  | nil => exact (List.length_eq_zero_iff.mp hlength.symm).symm
  | cons b l ih =>
    rcases l' with _ | ⟨b', l'⟩
    · cases hlength
    have hb := b.toNat_lt
    have hb' := b'.toNat_lt
    unfold leNat at h
    have hbyte : b.toNat = b'.toNat := by omega
    have hrest : leNat l = leNat l' := by omega
    rw [UInt8.toNat_inj.mp hbyte, ih (Nat.succ.inj hlength) hrest]

/-- `std::map` compares hashes by their bytes, from the first one on. -/
def bytesOrder : UInt256 ↪ Nat where
  toFun hash := leNat (serializeUInt256 hash).reverse
  inj' a b h := by
    have hlength : ∀ x : UInt256, (serializeUInt256 x).reverse.length = 32 := fun x => by
      rw [List.length_reverse, serializeUInt256, length_leBytes]
    have heq := List.reverse_injective (leNat_inj ((hlength a).trans (hlength b).symm) h)
    exact hashBytes_inj (congrArg (List.map UInt8.toNat) heq)

/-! ## Finalizing -/

/-- What the final commitments ask of the cryptography. -/
class FinalizeCrypto where
  aggregateSecure : List (CBLSSignature × CBLSPublicKey) → UInt256 → CBLSSignature
  /-- `RecoverSig` of shares with their ids; it may throw -/
  recoverSig : List (CBLSSignature × UInt256) → Option CBLSSignature

/-- `CBLSSignature::Recover` -/
def recover [FinalizeCrypto] (shares : List (CBLSSignature × UInt256)) : Option CBLSSignature :=
  if shares.isEmpty || shares.any (fun p => p.1 == 0) then none else FinalizeCrypto.recoverSig shares

/-- Commitments with the indexes of their senders. -/
abbrev Sent (n : Nat) := List (Fin n × CDKGPrematureCommitment)

/-- The valid commitments, in the order of their hashes. -/
def CDKGSession.valid {n : Nat} (s : CDKGSession n) : Sent n :=
  ((s.prematureCommitments.toList bytesOrder).filter fun p => decide (p.1 ∈ s.validCommitments)).map Sigma.snd

/-- The member sent one of the commitments. -/
def sentOne {n : Nat} (cvec : Sent n) (i : Fin n) : Bool :=
  cvec.any fun p => decide (p.1 = i)

/-- The commitments of a group. -/
def withMembers {n : Nat} (l : Sent n) (validMembers : List Bool) : Sent n :=
  l.filter fun p => decide (p.2.validMembers = validMembers)

/-- The keys of `commitmentsMap`. -/
def groupKeys {n : Nat} (l : Sent n) : List (List Bool) :=
  (l.map fun p => p.2.validMembers).dedup.insertionSort fun a b => a ≤ b

section

variable [EvoCrypto]

/-- A key as it was read. -/
def readKey (key : CBLSPublicKey) : ParsedKey :=
  if h : EvoCrypto.isValid key = true then ⟨key, .inr h⟩ else .null

/-- What a commitment is about: the valid members, the key and the hash of the vector. -/
abbrev Content := List Bool × ParsedKey × UInt256

def CDKGPrematureCommitment.content (qc : CDKGPrematureCommitment) : Content :=
  (qc.validMembers, readKey qc.quorumPublicKey, qc.quorumVvecHash)

def CFinalCommitment.content (fqc : CFinalCommitment) : Content :=
  (fqc.validMembers, fqc.quorumPublicKey, fqc.quorumVvecHash)

/-- The commitments of a group that have the content of the first one. -/
def matching {n : Nat} (cvec : Sent n) (first : CDKGPrematureCommitment) : Sent n :=
  cvec.filter fun p => decide ((readKey p.2.quorumPublicKey).1 = (readKey first.quorumPublicKey).1) &&
    decide (p.2.quorumVvecHash = first.quorumVvecHash)

namespace DkgNode

variable (node : DkgNode)

/-- The shares of the quorum signature. -/
def shares (cvec : Sent node.n) : List (CBLSSignature × UInt256) :=
  cvec.map fun p => (p.2.quorumSig, node.quorum.proTxHash p.1)

variable [QuorumCrypto] [FinalizeCrypto]

/-- The final commitment of a group, if there is one; outside of `fqc.signers` no bit may be set. -/
def finalizeGroup (cvec : Sent node.n) : Option (Option CFinalCommitment) :=
  if cvec.length < node.quorum.params.minSize then some none
  else
    match cvec with
    | [] => some none
    | (_, first) :: _ => do
        let commitmentHash := QuorumCrypto.buildCommitmentHash node.quorum.params.type first.quorumHash
          first.validMembers (readKey first.quorumPublicKey).1 first.quorumVvecHash
        let signers ← node.bits (sentOne (matching cvec first))
        let membersSig := FinalizeCrypto.aggregateSecure ((matching cvec first).map fun p =>
          (p.2.sig, (node.quorum.dmn p.1).pdmnState.pubKeyOperator)) commitmentHash
        return (recover (node.shares (matching cvec first))).map fun quorumSig =>
          { llmqType := node.quorum.params.type, quorumHash := first.quorumHash, signers := signers
            validMembers := first.validMembers, quorumPublicKey := readKey first.quorumPublicKey
            quorumVvecHash := first.quorumVvecHash, quorumSig := quorumSig, membersSig := membersSig }

/-- `none` also if the assertion on the number of valid members fails. -/
def finalizeCommitments (s : CDKGSession node.n) : Option (List CFinalCommitment) :=
  match node.myIdx with
  | none => some []
  | some _ =>
      if s.valid.all fun p => decide (node.quorum.params.minSize ≤ p.2.countValidMembers) then
        ((groupKeys s.valid).mapM fun validMembers => node.finalizeGroup (withMembers s.valid validMembers)).map
          List.reduceOption
      else none

/-! ## What final commitments should be -/

/-- The members that sent a commitment with the content. -/
def senders (l : Sent node.n) (c : Content) : Finset (Fin node.n) :=
  Finset.univ.filter fun i => ∃ p ∈ l, p.1 = i ∧ p.2.content = c

/-- The members that sent exactly one valid commitment, with the content. -/
def backers (l : Sent node.n) (c : Content) : Finset (Fin node.n) :=
  Finset.univ.filter fun i => (l.filter fun p => decide (p.1 = i)).map (fun p => p.2.content) = [c]

/-- The signers of a final commitment. -/
def signers (fqc : CFinalCommitment) : Finset (Fin node.n) :=
  Finset.univ.filter fun i => fqc.signers.getD i false = true

/-- Final commitments are backed, and a content with enough backers gets one. -/
structure Backed (l : Sent node.n) (fqcs : List CFinalCommitment) : Prop where
  minSize_le : ∀ fqc ∈ fqcs, node.quorum.params.minSize ≤ (node.signers fqc).card
  committed : ∀ fqc ∈ fqcs, node.signers fqc ⊆ node.senders l fqc.content
  returned : ∀ c, node.quorum.params.minSize ≤ (node.backers l c).card → ∃ fqc ∈ fqcs, fqc.content = c

/-- The shares of those who sent the content can be combined. -/
def Recoverable (l : Sent node.n) (c : Content) : Prop :=
  (recover (node.shares (l.filter fun p => decide (p.2.content = c)))).isSome = true

/-- **The condition on the commitments received.** They have enough valid members for the parameters of now. And
where enough commitments have the same valid members, let `first` be the one of them with the lowest hash: its
senders are within the size of now. If the shares for its content can be combined, enough members sent it, and no
other content with these valid members has enough backers; and if they cannot, then no content with these valid
members has. -/
structure Decided (l : Sent node.n) : Prop where
  counted : ∀ p ∈ l, node.quorum.params.minSize ≤ p.2.countValidMembers
  within : ∀ first rest, withMembers l first.2.validMembers = first :: rest →
    node.quorum.params.minSize ≤ rest.length + 1 →
    ∀ i ∈ node.senders l first.2.content, (i : Nat) < node.quorum.params.size
  recoverable : ∀ first rest, withMembers l first.2.validMembers = first :: rest →
    node.quorum.params.minSize ≤ rest.length + 1 → node.Recoverable l first.2.content →
    node.quorum.params.minSize ≤ (node.senders l first.2.content).card ∧
      ∀ c : Content, c.1 = first.2.validMembers → c ≠ first.2.content →
        (node.backers l c).card < node.quorum.params.minSize
  unrecoverable : ∀ first rest, withMembers l first.2.validMembers = first :: rest →
    node.quorum.params.minSize ≤ rest.length + 1 → ¬ node.Recoverable l first.2.content →
    ∀ c : Content, c.1 = first.2.validMembers → (node.backers l c).card < node.quorum.params.minSize

variable {node} {l rest : Sent node.n} {first : Fin node.n × CDKGPrematureCommitment}
  {fqc : CFinalCommitment} {validMembers : List Bool}

/-! ## Groups -/

omit [EvoCrypto] [QuorumCrypto] [FinalizeCrypto] in
theorem mem_groupKeys : validMembers ∈ groupKeys l ↔ ∃ p ∈ l, p.2.validMembers = validMembers := by
  unfold groupKeys
  rw [List.mem_insertionSort, List.mem_dedup, List.mem_map]

omit [EvoCrypto] [QuorumCrypto] [FinalizeCrypto] in
/-- The first commitment of a group has its valid members. -/
theorem first_of_group (h : withMembers l validMembers = first :: rest) :
    first ∈ l ∧ first.2.validMembers = validMembers := by
  have hmem : first ∈ withMembers l validMembers := h ▸ List.mem_cons_self
  obtain ⟨hl, hkey⟩ := List.mem_filter.mp hmem
  exact ⟨hl, of_decide_eq_true hkey⟩

omit [QuorumCrypto] [FinalizeCrypto] in
/-- In its group, the commitments that match the first one are those with its content. -/
theorem matching_withMembers (l : Sent node.n) (qc : CDKGPrematureCommitment) :
    matching (withMembers l qc.validMembers) qc = l.filter fun p => decide (p.2.content = qc.content) := by
  unfold matching withMembers
  rw [List.filter_filter]
  refine List.filter_congr fun p _ => ?_
  unfold CDKGPrematureCommitment.content
  rw [Bool.eq_iff_iff]
  simp only [Bool.and_eq_true, decide_eq_true_eq, Prod.mk.injEq]
  rw [and_comm]
  exact and_congr_right fun _ => and_congr_left fun _ => Subtype.ext_iff.symm

omit [EvoCrypto] [QuorumCrypto] [FinalizeCrypto] in
/-- The bits that are set are those of the members. -/
theorem getD_bits {f : Fin node.n → Bool} {bits : List Bool} (h : node.bits f = some bits) (i : Fin node.n) :
    bits.getD i false = f i := by
  unfold DkgNode.bits at h
  split_ifs at h with hbound
  obtain rfl := Option.some.inj h
  rw [List.getD_eq_getElem?_getD]
  by_cases hi : (i : Nat) < node.quorum.params.size
  · have hmember : (i : Nat) < (List.finRange node.n).length := by
      rw [List.length_finRange]
      exact i.isLt
    rw [List.getElem?_take_of_lt hi, List.getElem?_append_left (by rwa [List.length_map]), List.getElem?_map,
      List.getElem?_eq_getElem hmember, List.getElem_finRange]
    rfl
  · have hnot : f i = false := Bool.eq_false_iff.mpr fun hset => hi (hbound i hset)
    rw [List.getElem?_take_eq_none (not_lt.mp hi), hnot]
    rfl

omit [QuorumCrypto] [FinalizeCrypto] in
theorem sentOne_filter_content (l : Sent node.n) (c : Content) (i : Fin node.n) :
    sentOne (l.filter fun p => decide (p.2.content = c)) i = true ↔ i ∈ node.senders l c := by
  simp only [sentOne, List.any_eq_true, List.mem_filter, decide_eq_true_eq, senders, Finset.mem_filter, Finset.mem_univ,
    true_and]
  exact exists_congr fun p => by tauto

/-- **A large group** is finalized within bounds if the senders of the first content are within the size. -/
theorem finalizeGroup_of_large (hgroup : withMembers l validMembers = first :: rest)
    (hlarge : node.quorum.params.minSize ≤ rest.length + 1) :
    ((node.finalizeGroup (withMembers l validMembers)).isSome = true ↔
        ∀ i ∈ node.senders l first.2.content, (i : Nat) < node.quorum.params.size) ∧
      ∀ final, node.finalizeGroup (withMembers l validMembers) = some final →
        (final.isSome = true ↔ node.Recoverable l first.2.content) ∧
          ∀ fqc ∈ final, fqc.content = first.2.content ∧ node.signers fqc = node.senders l first.2.content := by
  obtain rfl := (first_of_group hgroup).2
  obtain ⟨i₀, first⟩ := first
  have hmatching := matching_withMembers l first
  rw [hgroup] at hmatching
  unfold finalizeGroup Recoverable
  rw [hgroup, List.length_cons, if_neg (not_lt.mpr hlarge)]
  dsimp only
  rw [hmatching]
  simp only [← sentOne_filter_content]
  have hsenders : ∀ i, sentOne (l.filter fun p => decide (p.2.content = first.content)) i = true ↔
      i ∈ node.senders l first.content := sentOne_filter_content l first.content
  generalize (l.filter fun p => decide (p.2.content = first.content)) = same at hsenders ⊢
  rcases hbits : node.bits (sentOne same) with _ | signers
  · refine ⟨iff_of_false Bool.false_ne_true fun hall => ?_, fun final hfinal => ?_⟩
    · rw [DkgNode.bits, if_pos hall] at hbits
      cases hbits
    · exact absurd hfinal (Option.some_ne_none final).symm
  · refine ⟨iff_of_true rfl ?_, fun final hfinal => ?_⟩
    · rw [DkgNode.bits] at hbits
      split_ifs at hbits with hall
      exact hall
    · obtain rfl := Option.some.inj hfinal
      refine ⟨by rw [Option.isSome_map], fun fqc hfqc => ?_⟩
      obtain ⟨quorumSig, -, rfl⟩ := Option.map_eq_some_iff.mp hfqc
      refine ⟨rfl, Finset.ext fun i => ?_⟩
      rw [← hsenders, DkgNode.signers, Finset.mem_filter, and_iff_right (Finset.mem_univ i), getD_bits hbits]

omit [QuorumCrypto] [FinalizeCrypto] in
/-- The members with a single commitment to a content are no more than the commitments of the group. -/
theorem card_backers_le (l : Sent node.n) (c : Content) :
    (node.backers l c).card ≤ (withMembers l c.1).length := by
  have hmem : node.backers l c ⊆ ((withMembers l c.1).map Prod.fst).toFinset := by
    intro i hi
    have hsingle := (Finset.mem_filter.mp hi).2
    obtain ⟨p, hp, hcontent⟩ := List.map_eq_singleton_iff.mp hsingle
    have hfilter : p ∈ l.filter fun p => decide (p.1 = i) := hp ▸ List.mem_cons_self
    obtain ⟨hl, hsender⟩ := List.mem_filter.mp hfilter
    rw [List.mem_toFinset, ← of_decide_eq_true hsender]
    refine List.mem_map_of_mem (List.mem_filter.mpr ⟨hl, decide_eq_true ?_⟩)
    rw [← hcontent]
    rfl
  calc (node.backers l c).card ≤ ((withMembers l c.1).map Prod.fst).toFinset.card := Finset.card_le_card hmem
    _ ≤ ((withMembers l c.1).map Prod.fst).length := List.toFinset_card_le _
    _ = (withMembers l c.1).length := List.length_map _

omit [EvoCrypto] [QuorumCrypto] [FinalizeCrypto] in
theorem exists_first_of_mem (h : validMembers ∈ groupKeys l) :
    ∃ first rest, withMembers l validMembers = first :: rest := by
  obtain ⟨p, hp, hkey⟩ := mem_groupKeys.mp h
  exact List.exists_cons_of_ne_nil (List.ne_nil_of_mem (List.mem_filter.mpr ⟨hp, decide_eq_true hkey⟩))

/-- **Where a final commitment comes from**: from a large group, whose first content it has. -/
theorem of_finalizeGroup (hkey : validMembers ∈ groupKeys l)
    (h : node.finalizeGroup (withMembers l validMembers) = some (some fqc)) :
    ∃ first rest, withMembers l validMembers = first :: rest ∧ node.quorum.params.minSize ≤ rest.length + 1 ∧
      first.2.validMembers = validMembers ∧ node.Recoverable l first.2.content ∧ fqc.content = first.2.content ∧
      node.signers fqc = node.senders l first.2.content := by
  obtain ⟨first, rest, hgroup⟩ := exists_first_of_mem hkey
  have hlarge : node.quorum.params.minSize ≤ rest.length + 1 := by
    by_contra hsmall
    unfold finalizeGroup at h
    rw [hgroup, List.length_cons, if_pos (not_le.mp hsmall)] at h
    cases h
  obtain ⟨-, hfinal⟩ := finalizeGroup_of_large hgroup hlarge
  obtain ⟨hrecover, hcontent⟩ := hfinal (some fqc) h
  exact ⟨first, rest, hgroup, hlarge, (first_of_group hgroup).2, hrecover.mp rfl, hcontent fqc rfl⟩

/-! ## All groups -/

omit [EvoCrypto] [QuorumCrypto] [FinalizeCrypto] in
theorem mem_reduceOption_of_mapM {α β : Type} {f : α → Option (Option β)} {l : List α} {rs : List (Option β)}
    (h : l.mapM f = some rs) : (∀ a ∈ l, (f a).isSome = true) ∧
      ∀ b, b ∈ rs.reduceOption ↔ ∃ a ∈ l, f a = some (some b) := by
  induction l generalizing rs with
  | nil =>
    obtain rfl := Option.some.inj h
    exact ⟨fun _ ha => absurd ha List.not_mem_nil, fun b => by simp⟩
  | cons a l ih =>
    rw [List.mapM_cons] at h
    obtain ⟨r, hr, h⟩ := Option.bind_eq_some_iff.mp h
    obtain ⟨rs', hrs, h⟩ := Option.bind_eq_some_iff.mp h
    obtain rfl := Option.some.inj h
    obtain ⟨hsome, hmem⟩ := ih hrs
    refine ⟨List.forall_mem_cons.mpr ⟨by rw [hr]; rfl, hsome⟩, fun b => ?_⟩
    rw [List.exists_mem_cons_iff, hr, ← hmem]
    cases r <;> simp [eq_comm]

theorem decided_of_backed {rs : List (Option CFinalCommitment)}
    (hcounted : ∀ p ∈ l, node.quorum.params.minSize ≤ p.2.countValidMembers)
    (hrun : (groupKeys l).mapM (fun validMembers => node.finalizeGroup (withMembers l validMembers)) = some rs)
    (h : node.Backed l rs.reduceOption) : node.Decided l := by
  obtain ⟨hsome, hmem⟩ := mem_reduceOption_of_mapM hrun
  have hkey {first : Fin node.n × CDKGPrematureCommitment} {rest : Sent node.n}
      (hgroup : withMembers l first.2.validMembers = first :: rest) : first.2.validMembers ∈ groupKeys l :=
    mem_groupKeys.mpr ⟨first, (first_of_group hgroup).1, rfl⟩
  -- a content with enough backers is that of the first commitment of its group
  have hbackers {first : Fin node.n × CDKGPrematureCommitment} {rest : Sent node.n}
      {c : Content} (hgroup : withMembers l first.2.validMembers = first :: rest) (hc : c.1 = first.2.validMembers)
      (henough : node.quorum.params.minSize ≤ (node.backers l c).card) :
      c = first.2.content ∧ node.Recoverable l first.2.content := by
    obtain ⟨fqc, hfqc, rfl⟩ := h.returned c henough
    obtain ⟨validMembers, hvalid, hfinal⟩ := (hmem fqc).mp hfqc
    obtain ⟨first', rest', hgroup', -, hkey', hrecover, hcontent, -⟩ := of_finalizeGroup hvalid hfinal
    have hsame : validMembers = first.2.validMembers := by
      rw [← hkey', ← hc, hcontent]
      rfl
    rw [hsame, hgroup] at hgroup'
    obtain ⟨rfl, -⟩ := List.cons.inj hgroup'
    exact ⟨hcontent, hrecover⟩
  refine ⟨hcounted, fun first rest hgroup hlarge => ?_,
    fun first rest hgroup hlarge hrecover => ⟨?_, fun c hc hne => ?_⟩,
    fun first rest hgroup hlarge hno c hc => ?_⟩
  · exact (finalizeGroup_of_large hgroup hlarge).1.mp (hsome _ (hkey hgroup))
  · obtain ⟨final, hfinal⟩ := Option.isSome_iff_exists.mp (hsome _ (hkey hgroup))
    obtain ⟨hiff, hcontent⟩ := (finalizeGroup_of_large hgroup hlarge).2 final hfinal
    obtain ⟨fqc, rfl⟩ := Option.isSome_iff_exists.mp (hiff.mpr hrecover)
    rw [← (hcontent fqc rfl).2]
    exact h.minSize_le fqc ((hmem fqc).mpr ⟨_, hkey hgroup, hfinal⟩)
  · by_contra henough
    exact hne (hbackers hgroup hc (not_lt.mp henough)).1
  · by_contra henough
    exact hno (hbackers hgroup hc (not_lt.mp henough)).2

theorem backed_of_decided (h : node.Decided l) : ∃ rs, (groupKeys l).mapM (fun validMembers =>
    node.finalizeGroup (withMembers l validMembers)) = some rs ∧ node.Backed l rs.reduceOption := by
  have hsome : ∀ validMembers ∈ groupKeys l, (node.finalizeGroup (withMembers l validMembers)).isSome = true := by
    intro validMembers hkey
    obtain ⟨first, rest, hgroup⟩ := exists_first_of_mem hkey
    obtain rfl := (first_of_group hgroup).2
    by_cases hlarge : node.quorum.params.minSize ≤ rest.length + 1
    · exact (finalizeGroup_of_large hgroup hlarge).1.mpr (h.within first rest hgroup hlarge)
    · unfold finalizeGroup
      rw [hgroup, List.length_cons, if_pos (not_le.mp hlarge)]
      rfl
  obtain ⟨rs, hrun⟩ := exists_mapM_of_isSome hsome
  obtain ⟨-, hmem⟩ := mem_reduceOption_of_mapM hrun
  refine ⟨rs, hrun, fun fqc hfqc => ?_, fun fqc hfqc => ?_, fun c hc => ?_⟩
  · obtain ⟨validMembers, hkey, hfinal⟩ := (hmem fqc).mp hfqc
    obtain ⟨first, rest, hgroup, hlarge, rfl, hrecover, -, hsigners⟩ := of_finalizeGroup hkey hfinal
    rw [hsigners]
    exact (h.recoverable first rest hgroup hlarge hrecover).1
  · obtain ⟨validMembers, hkey, hfinal⟩ := (hmem fqc).mp hfqc
    obtain ⟨first, rest, -, -, -, -, hcontent, hsigners⟩ := of_finalizeGroup hkey hfinal
    rw [hsigners, hcontent]
  · have hlarge := hc.trans (card_backers_le l c)
    have hpos := node.quorum.minSize_pos
    obtain ⟨first, rest, hgroup⟩ := List.exists_cons_of_length_pos (lt_of_lt_of_le hpos hlarge)
    obtain ⟨hfirst, hkey⟩ := first_of_group hgroup
    rw [hgroup, List.length_cons] at hlarge
    rw [← hkey] at hgroup
    have hrecover : node.Recoverable l first.2.content := by
      by_contra hno
      exact absurd hc (not_le.mpr (h.unrecoverable first rest hgroup hlarge hno c hkey.symm))
    have hcontent : c = first.2.content := by
      by_contra hne
      exact absurd hc (not_le.mpr ((h.recoverable first rest hgroup hlarge hrecover).2 c hkey.symm hne))
    have hin : first.2.validMembers ∈ groupKeys l := mem_groupKeys.mpr ⟨first, hfirst, rfl⟩
    obtain ⟨final, hfinal⟩ := Option.isSome_iff_exists.mp (hsome _ hin)
    obtain ⟨hiff, hfqc⟩ := (finalizeGroup_of_large hgroup hlarge).2 final hfinal
    obtain ⟨fqc, rfl⟩ := Option.isSome_iff_exists.mp (hiff.mpr hrecover)
    exact ⟨fqc, (hmem fqc).mpr ⟨_, hin, hfinal⟩, (hfqc fqc rfl).1.trans hcontent.symm⟩

/-- **Final commitments.** In every state of a session and for all parameters, the commitments are finalized to ones
that are backed by the quorum, with every content that has enough backers among them, if and only if the commitments
received are decided; an observer finalizes nothing. -/
theorem finalizeCommitments_backed_iff (node : DkgNode) (s : CDKGSession node.n) :
    (∃ fqcs, node.finalizeCommitments s = some fqcs ∧ node.Backed s.valid fqcs) ↔
      (node.areWeMember = true → node.Decided s.valid) ∧
        (node.areWeMember = false → ∀ c, (node.backers s.valid c).card < node.quorum.params.minSize) := by
  unfold finalizeCommitments areWeMember
  cases node.myIdx with
  | none =>
    constructor
    · rintro ⟨fqcs, hrun, h⟩
      obtain rfl := Option.some.inj hrun
      refine ⟨nofun, fun _ c => ?_⟩
      by_contra hc
      obtain ⟨fqc, hno, -⟩ := h.returned c (not_lt.mp hc)
      exact absurd hno List.not_mem_nil
    · rintro ⟨-, h⟩
      refine ⟨[], rfl, fun fqc hno => ?_, fun fqc hno => ?_, fun c hc => absurd hc (not_le.mpr (h rfl c))⟩
      all_goals exact absurd hno List.not_mem_nil
  | some me =>
    dsimp only
    constructor
    · rintro ⟨fqcs, hrun, h⟩
      refine ⟨fun _ => ?_, nofun⟩
      split_ifs at hrun with hcounted
      obtain ⟨rs, hrs, rfl⟩ := Option.map_eq_some_iff.mp hrun
      exact decided_of_backed (fun p hp => of_decide_eq_true (List.all_eq_true.mp hcounted p hp)) hrs h
    · rintro ⟨h, -⟩
      obtain ⟨rs, hrs, hbacked⟩ := backed_of_decided (h rfl)
      rw [if_pos (List.all_eq_true.mpr fun p hp => decide_eq_true ((h rfl).counted p hp)), hrs]
      exact ⟨_, rfl, hbacked⟩

end DkgNode

end

/-! ## Three commitments -/

section

attribute [local instance] plainCrypto oneQuorumCrypto oneDkgCrypto

/-- An instance to evaluate the model on. -/
@[reducible] def oneFinalizeCrypto : FinalizeCrypto where
  aggregateSecure _ _ := 1
  recoverSig _ := some 1

attribute [local instance] oneFinalizeCrypto

/-- A round in which the contribution of the third member did not arrive. -/
def commitEvents (commitments : List DKGMessage) : List DkgEvent :=
  sampleEvents [sampleContribution 1, sampleContribution 2] [] ++ [.start [] [] 0 0, .nextPhase] ++
    commitments.flatMap DKGMessage.events

/-- The state after the commitments, and what they are finalized to. -/
def sampleFinal (commitments : List DKGMessage) : Option (DkgState sampleNode.n × List CFinalCommitment) := do
  let st ← (commitEvents commitments).foldlM sampleNode.step { chain := Network.main.chainParams }
  let fqcs ← (sampleNode.under st.chain).finalizeCommitments st.session
  return (st, fqcs)

/-- The content of the commitments. -/
def sampleContent (quorumVvecHash : UInt256) : Content := ([true, true, true], readKey 1, quorumVvecHash)

/-- Two of three members, enough for the quorum, commit to one content. The commitment of the third has a lower hash:
only its content is returned, signed by it alone. -/
theorem minority_finalized :
    ((sampleFinal [sampleCommitmentOf 1 10, sampleCommitmentOf 2 10, sampleCommitmentOf 3 1]).map fun (st, fqcs) =>
      (decide ((sampleNode.under st.chain).quorum.params.minSize ≤
          ((sampleNode.under st.chain).backers st.session.valid (sampleContent 10)).card),
        fqcs.map fun fqc => (decide (fqc.content = sampleContent 10), fqc.signers))) =
      some (true, [(false, [false, false, true])]) := by
  decide +kernel

end

end RavenCash.Evo.Llmq
