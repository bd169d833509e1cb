import RavenCash.Bls.ContributionVerifier

/-!
# Aggregated verification against verification one by one

Secret keys are scalars with the flag of `CBLSWrapper`, and public keys the images of scalars under a
homomorphism. The share of a vector at an id is the value of the polynomial that the vector is of.
What a share is off its vector is its error; a batch is accepted as a whole when the errors add up to
zero. The keys of a vector are valid ones: `VerifyVerificationVectors` refuses any other.
-/

set_option autoImplicit false

namespace RavenCash.Bls

/-- `CBLSSecretKey`: `impl` with `fValid`. -/
structure CBLSSecretKey (F : Type) where
  impl : F
  fValid : Bool
deriving DecidableEq, Repr

/-- The key read from the bytes of a scalar; a buffer of zeros resets it. -/
def CBLSSecretKey.setBuf {F : Type} [Zero F] [DecidableEq F] (s : F) : CBLSSecretKey F := ⟨s, decide (s ≠ 0)⟩

/-- `AggregateInsecure` of two valid keys. The flag stays as it is, even if the sum is zero. -/
def CBLSSecretKey.aggregateInsecure {F : Type} [Add F] (sk o : CBLSSecretKey F) : CBLSSecretKey F :=
  { sk with impl := sk.impl + o.impl }

section Shares

variable {F G : Type} [CommRing F] [AddCommGroup G] [Module F G] (getPublicKey : F →ₗ[F] G) (id : F)

/-- The value at the id of the polynomial with these coefficients. -/
def publicKeyShare : List G → G
  | [] => 0
  | key :: vvec => key + id • publicKeyShare vvec

/-- What a share is off its vector. -/
def error (p : List G × CBLSSecretKey F) : G := getPublicKey p.2.impl - publicKeyShare id p.1

variable {id}

theorem publicKeyShare_zipWith {a b : List G} (h : a.length = b.length) :
    publicKeyShare id (List.zipWith (· + ·) a b) = publicKeyShare id a + publicKeyShare id b := by
  induction a generalizing b with
  | nil =>
    rw [List.length_eq_zero_iff.mp h.symm]
    simp [publicKeyShare]
  | cons x a ih =>
    rcases b with _ | ⟨y, b⟩
    · cases h
    rw [List.zipWith_cons_cons, publicKeyShare, ih (Nat.succ.inj h), publicKeyShare, publicKeyShare, smul_add]
    abel

/-- The aggregate of vectors of one size has that size, and its share is the sum of their shares. -/
theorem foldl_addVvec {vvec : List G} {vvecs : List (List G)} (h : ∀ w ∈ vvecs, w.length = vvec.length) :
    (vvecs.foldl (List.zipWith (· + ·)) vvec).length = vvec.length ∧
      publicKeyShare id (vvecs.foldl (List.zipWith (· + ·)) vvec) =
        publicKeyShare id vvec + (vvecs.map (publicKeyShare id)).sum := by
  induction vvecs generalizing vvec with
  | nil => simp
  | cons w vvecs ih =>
    have hw : w.length = vvec.length := h w List.mem_cons_self
    have hlength : (List.zipWith (· + ·) vvec w).length = vvec.length := by
      rw [List.length_zipWith, hw, min_self]
    have hrest : ∀ u ∈ vvecs, u.length = (List.zipWith (· + ·) vvec w).length := by
      intro u hu
      exact (h u (List.mem_cons_of_mem _ hu)).trans hlength.symm
    obtain ⟨hsize, hshare⟩ := ih hrest
    refine ⟨hsize.trans hlength, ?_⟩
    rw [List.foldl_cons, hshare, publicKeyShare_zipWith hw.symm, List.map_cons, List.sum_cons, add_assoc]

/-- The aggregate of keys is their sum, with the flag of the first. -/
theorem foldl_aggregateInsecure (sk : CBLSSecretKey F) (sks : List (CBLSSecretKey F)) :
    sks.foldl CBLSSecretKey.aggregateInsecure sk = ⟨sk.impl + (sks.map CBLSSecretKey.impl).sum, sk.fValid⟩ := by
  induction sks generalizing sk with
  | nil => simp
  | cons o sks ih => rw [List.foldl_cons, ih, List.map_cons, List.sum_cons, ← add_assoc]; rfl

theorem sum_error (l : List (List G × CBLSSecretKey F)) : (l.map (error getPublicKey id)).sum =
    getPublicKey ((l.map Prod.snd).map CBLSSecretKey.impl).sum - ((l.map Prod.fst).map (publicKeyShare id)).sum := by
  induction l with
  | nil => simp
  | cons p l ih =>
    simp only [List.map_cons, List.sum_cons, ih, error, map_add]
    abel

/-- **The aggregate of a batch** has the size of its vectors, the flag of its first share and the sum of its errors. -/
theorem aggregate_spec {p : List G × CBLSSecretKey F} {l : List (List G × CBLSSecretKey F)} {n : Nat}
    (hn : ∀ q ∈ p :: l, q.1.length = n) {vvec : List G} {skShare : CBLSSecretKey F}
    (hvvec : (l.map Prod.fst).foldl (List.zipWith (· + ·)) p.1 = vvec)
    (hsk : (l.map Prod.snd).foldl CBLSSecretKey.aggregateInsecure p.2 = skShare) :
    vvec.length = n ∧ skShare.fValid = p.2.fValid ∧
      error getPublicKey id (vvec, skShare) = ((p :: l).map (error getPublicKey id)).sum := by
  have hp : p.1.length = n := hn p List.mem_cons_self
  have hlength : ∀ w ∈ l.map Prod.fst, w.length = p.1.length := by
    intro w hw
    obtain ⟨q, hq, rfl⟩ := List.mem_map.mp hw
    exact (hn q (List.mem_cons_of_mem _ hq)).trans hp.symm
  obtain ⟨hsize, hshare⟩ : _ ∧ publicKeyShare id _ = _ := foldl_addVvec hlength
  rw [foldl_aggregateInsecure] at hsk
  subst hvvec hsk
  refine ⟨hsize.trans hp, rfl, ?_⟩
  rw [sum_error]
  exact congrArg (getPublicKey _ - ·) hshare

end Shares

theorem flatMap_eq_iff {α β : Type} {f g : α → List β} (h : ∀ a, (f a).length = (g a).length) (l : List α) :
    l.flatMap f = l.flatMap g ↔ ∀ a ∈ l, f a = g a := by
  induction l with
  | nil => simp
  | cons a l ih =>
    rw [List.flatMap_cons, List.flatMap_cons, List.forall_mem_cons, ← ih]
    constructor
    · exact fun heq => List.append_inj heq (h a)
    · exact fun heq => congrArg₂ _ heq.1 heq.2

theorem length_batchResults {V S : Type} {ops : ShareOps V S} (l : List (V × S)) :
    (batchResults ops l).length = l.length := by
  unfold batchResults
  split
  · split_ifs
    · exact List.length_replicate
    · exact List.length_replicate
    · exact length_verifyEach l
  · exact List.length_replicate

section Verification

variable {F G : Type} [CommRing F] [AddCommGroup G] [Module F G] [DecidableEq G] {getPublicKey : F →ₗ[F] G} {id : F}

variable (getPublicKey id) in
/-- There is no share of a vector without entries, and the public key of an invalid key is none. -/
def scalarOps : ShareOps (List G) (CBLSSecretKey F) where
  isValid := CBLSSecretKey.fValid
  addShare := CBLSSecretKey.aggregateInsecure
  addVvec := List.zipWith (· + ·)
  isEmpty := List.isEmpty
  verify vvec skShare :=
    !vvec.isEmpty && skShare.fValid && decide (publicKeyShare id vvec = getPublicKey skShare.impl)

/-- Vectors of one size whose keys are all different. -/
def verifyVerificationVectors (vvecs : List (List G)) : Bool :=
  vvecs.all (fun vvec => decide (vvec.length = (vvecs.headD []).length)) && decide vvecs.flatten.Nodup

theorem verify_iff {vvec : List G} {skShare : CBLSSecretKey F} :
    (scalarOps getPublicKey id).verify vvec skShare = true ↔
      vvec ≠ [] ∧ skShare.fValid = true ∧ error getPublicKey id (vvec, skShare) = 0 := by
  rw [error, sub_eq_zero, eq_comm (a := getPublicKey skShare.impl)]
  simp [scalarOps, and_assoc]

/-- **When a batch is verified as if one by one**: its errors do not cancel. -/
theorem batchResults_eq_iff {l : List (List G × CBLSSecretKey F)} {n : Nat} (hne : l ≠ [])
    (hn : ∀ p ∈ l, p.1.length = n) (hcan : CanAggregate (scalarOps getPublicKey id) l) :
    batchResults (scalarOps getPublicKey id) l = verifyEach (scalarOps getPublicKey id) l ↔
      (0 < n → (l.map (error getPublicKey id)).sum = 0 → ∀ p ∈ l, error getPublicKey id p = 0) := by
  obtain ⟨p, l, rfl⟩ := List.exists_cons_of_ne_nil hne
  simp only [batchResults, List.map_cons, syncAggregate]
  generalize hvvec : (l.map Prod.fst).foldl (scalarOps getPublicKey id).addVvec p.1 = vvec
  generalize hsk : (l.map Prod.snd).foldl (scalarOps getPublicKey id).addShare p.2 = skShare
  obtain ⟨hsize, hflag, herror⟩ : _ ∧ _ ∧ error _ id _ = _ := aggregate_spec getPublicKey hn hvvec hsk
  rcases Nat.eq_zero_or_pos n with rfl | hpos
  · have hempty : (scalarOps getPublicKey id).isEmpty vvec = true :=
      List.isEmpty_iff.mpr (List.length_eq_zero_iff.mp hsize)
    rw [hempty, Bool.true_or, if_pos rfl]
    refine iff_of_true ?_ fun hpos => absurd hpos (lt_irrefl 0)
    refine (List.eq_replicate_iff.mpr ⟨length_verifyEach _, fun b hb => ?_⟩).symm
    obtain ⟨q, hq, rfl⟩ := List.mem_map.mp hb
    rw [← Bool.not_eq_true, verify_iff]
    exact fun h => h.1 (List.length_eq_zero_iff.mp (hn q hq))
  have hne : ∀ w : List G, w.length = n → w ≠ [] := fun w hw => List.ne_nil_of_length_pos (hw ▸ hpos)
  have hempty : (scalarOps getPublicKey id).isEmpty vvec = false := List.isEmpty_eq_false_iff.mpr (hne vvec hsize)
  rw [hempty, Bool.false_or, show (scalarOps getPublicKey id).isValid skShare = p.2.fValid from hflag]
  cases hfValid : p.2.fValid with
  | false =>
    -- a share that is not valid is alone in its batch
    obtain rfl : l = [] := by
      rcases hcan with hle | hall
      · exact List.length_eq_zero_iff.mp (Nat.le_zero.mp (Nat.le_of_succ_le_succ hle))
      · exact absurd ((hall p List.mem_cons_self).symm.trans hfValid) (by decide)
    have hverify : (scalarOps getPublicKey id).verify p.1 p.2 = false := by
      rw [← Bool.not_eq_true, verify_iff, hfValid]
      exact fun h => absurd h.2.1 Bool.false_ne_true
    exact iff_of_true (by simp [verifyEach, hverify]) fun _ hsum => by simpa using hsum
  | true =>
    have hall : ∀ q ∈ p :: l, q.2.fValid = true := by
      rcases hcan with hle | hall
      · obtain rfl : l = [] := List.length_eq_zero_iff.mp (Nat.le_zero.mp (Nat.le_of_succ_le_succ hle))
        exact fun q hq => (List.mem_singleton.mp hq) ▸ hfValid
      · exact hall
    rw [if_neg (by simp), ← List.map_cons, ← herror]
    have hverify_iff : (scalarOps getPublicKey id).verify vvec skShare = true ↔
        error getPublicKey id (vvec, skShare) = 0 := by
      rw [verify_iff, and_iff_right (hne vvec hsize), hflag, hfValid, and_iff_right rfl]
    split_ifs with hverify
    · simp only [hpos, hverify_iff.mp hverify, forall_const]
      rw [eq_comm, List.eq_replicate_iff, and_iff_right (length_verifyEach _)]
      simp only [verifyEach, List.mem_map, forall_exists_index, and_imp, forall_apply_eq_imp_iff₂]
      refine forall₂_congr fun q hq => ?_
      rw [verify_iff, and_iff_right (hne q.1 (hn q hq)), and_iff_right (hall q hq)]
    · exact iff_of_true rfl fun _ hzero => absurd (hverify_iff.mpr hzero) hverify

/-! ## All batches -/

/-- The errors of the batch are not zero one by one but in total. -/
def Cancels (getPublicKey : F →ₗ[F] G) (id : F) (l : List (List G × CBLSSecretKey F)) : Prop :=
  (l.map (error getPublicKey id)).sum = 0 ∧ ∃ p ∈ l, p.1 ≠ [] ∧ error getPublicKey id p ≠ 0

/-- **Aggregated verification.** For vectors that are accepted, verification without aggregation reports which shares
match their vectors, and verification with aggregation reports the same in every schedule if and only if there is an
input, the vectors have entries, every batch of two or more has only valid shares, and the errors of no batch cancel. -/
theorem aggregated_eq_iff (inputs : List (List G × CBLSSecretKey F))
    (haccept : verifyVerificationVectors (inputs.map Prod.fst) = true) :
    verifyContributionShares (scalarOps getPublicKey id) true false inputs =
        inputs.map (fun p => (scalarOps getPublicKey id).verify p.1 p.2) ∧
      (CompletesOnce (scalarOps getPublicKey id) inputs.length
          (asyncVerifyContributionShares (scalarOps getPublicKey id) true true inputs)
          (verifyContributionShares (scalarOps getPublicKey id) true false inputs) ↔
        (∃ p ∈ inputs.head?, p.1 ≠ []) ∧ (∀ l ∈ batches true inputs, CanAggregate (scalarOps getPublicKey id) l) ∧
          ∀ l ∈ batches true inputs, ¬ Cancels getPublicKey id l) := by
  have honce : verifyContributionShares (scalarOps getPublicKey id) true false inputs =
      verifyEach (scalarOps getPublicKey id) inputs := by
    simp [verifyContributionShares, batches]
  have hbatches : verifyEach (scalarOps getPublicKey id) inputs =
      (batches true inputs).flatMap (verifyEach (scalarOps getPublicKey id)) := by
    rw [← flatten_batches true inputs, verifyEach, List.map_flatten, flatten_batches]
    rfl
  have hresults (hcan : ∀ l ∈ batches true inputs, CanAggregate (scalarOps getPublicKey id) l) :
      verifyContributionShares (scalarOps getPublicKey id) true true inputs =
          verifyContributionShares (scalarOps getPublicKey id) true false inputs ↔
        ∀ l ∈ batches true inputs, ¬ Cancels getPublicKey id l := by
    rw [honce, hbatches]
    simp only [verifyContributionShares, if_true]
    rw [flatMap_eq_iff fun l => (length_batchResults l).trans (length_verifyEach l).symm]
    refine forall₂_congr fun l hl => ?_
    have hmem : ∀ p ∈ l, p ∈ inputs := fun p hp => by
      rw [← flatten_batches true inputs]
      exact List.mem_flatten.mpr ⟨l, hl, hp⟩
    have hinputs : inputs ≠ [] := by
      rintro rfl
      rw [batches_nil] at hl
      exact absurd hl List.not_mem_nil
    have hsize : ∀ p ∈ l, p.1.length = ((inputs.map Prod.fst).headD []).length := fun p hp =>
      of_decide_eq_true (List.all_eq_true.mp (Bool.and_eq_true_iff.mp haccept).1 p.1 (List.mem_map_of_mem (hmem p hp)))
    rw [batchResults_eq_iff (ne_nil_of_mem_batches hinputs hl) hsize (hcan l hl)]
    generalize ((inputs.map Prod.fst).headD []).length = n at hsize
    constructor
    · rintro h ⟨hsum, p, hp, hvvec, hne⟩
      exact hne (h (hsize p hp ▸ List.length_pos_iff.mpr hvvec) hsum p hp)
    · intro h hpos hsum p hp
      by_contra hne
      exact h ⟨hsum, p, hp, List.ne_nil_of_length_pos (hsize p hp ▸ hpos), hne⟩
  refine ⟨honce, ?_⟩
  rw [completesOnce_iff]
  simp only [forall_const]
  constructor
  · rintro ⟨⟨hne, hverifiable⟩, heq⟩
    obtain ⟨p, rest, rfl⟩ := List.exists_cons_of_ne_nil hne
    obtain ⟨hfirst, hcan⟩ := hverifiable rfl
    exact ⟨⟨p, rfl, List.isEmpty_eq_false_iff.mp hfirst⟩, hcan, (hresults hcan).mp heq.symm⟩
  · rintro ⟨⟨p, hp, hvvec⟩, hcan, hcancels⟩
    refine ⟨⟨fun hnil => ?_, fun _ => ⟨?_, hcan⟩⟩, ((hresults hcan).mpr hcancels).symm⟩
    · rw [hnil] at hp
      exact absurd hp (Option.not_mem_none _)
    · rw [firstEmpty, Option.mem_def.mp hp]
      exact List.isEmpty_eq_false_iff.mpr hvvec

/-! ## Two shares that are off -/

/-- Scalars modulo 101, with the identity for the homomorphism: the shares at 1 of the two vectors are 3 and 7. -/
def sampleShares (a b : ZMod 101) : List (List (ZMod 101) × CBLSSecretKey (ZMod 101)) :=
  [([1, 2], .setBuf a), ([3, 4], .setBuf b)]

theorem aggregated_eq_sample :
    verifyVerificationVectors ((sampleShares 3 8).map Prod.fst) = true ∧
      (CompletesOnce (scalarOps (LinearMap.id : ZMod 101 →ₗ[ZMod 101] ZMod 101) 1) 2
          (asyncVerifyContributionShares (scalarOps LinearMap.id 1) true true (sampleShares 3 8))
          (verifyContributionShares (scalarOps LinearMap.id 1) true false (sampleShares 3 8)) ↔
        (∃ p ∈ (sampleShares 3 8).head?, p.1 ≠ []) ∧
          (∀ l ∈ batches true (sampleShares 3 8),
            CanAggregate (scalarOps (LinearMap.id : ZMod 101 →ₗ[ZMod 101] ZMod 101) 1) l) ∧
          ∀ l ∈ batches true (sampleShares 3 8), ¬ Cancels (LinearMap.id : ZMod 101 →ₗ[ZMod 101] ZMod 101) 1 l) :=
  ⟨by decide, (aggregated_eq_iff (sampleShares 3 8) (by decide)).2⟩

/-- One share is one too large and the other one too small: both are reported to be valid. -/
theorem cancelled_shares_valid :
    verifyVerificationVectors ((sampleShares 4 6).map Prod.fst) = true ∧
      CompletesOnce (scalarOps (LinearMap.id : ZMod 101 →ₗ[ZMod 101] ZMod 101) 1) 2
        (asyncVerifyContributionShares (scalarOps LinearMap.id 1) true true (sampleShares 4 6)) [true, true] ∧
      verifyContributionShares (scalarOps (LinearMap.id : ZMod 101 →ₗ[ZMod 101] ZMod 101) 1) true false
        (sampleShares 4 6) =
        [false, false] := by
  refine ⟨by decide, (completesOnce_iff true true (sampleShares 4 6)).mpr ⟨fun _ => ⟨nofun, fun _ => ?_⟩, by decide⟩,
    by decide⟩
  refine ⟨rfl, fun l hl => ?_⟩
  obtain rfl : l = sampleShares 4 6 := List.mem_singleton.mp hl
  exact canAggregate_iff.mpr (by decide)

end Verification

end RavenCash.Bls
