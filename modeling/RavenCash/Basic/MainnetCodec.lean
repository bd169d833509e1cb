import RavenCash.Basic.Serialize

/-!
# A codec that runs

Base58Check, the double SHA-256 and X16R are parameters of the model (`NodeCrypto`).
`mainnetCrypto` instantiates them so that definitions can be evaluated: on the key ids and byte
strings listed here it computes the mainnet addresses and the hashes of the node, elsewhere it tags
the bytes, which is enough for the laws. No mainnet header is hashed with X16R, and no public key
is hashed here.
-/

set_option autoImplicit false

namespace RavenCash

/-- Key ids with their mainnet addresses (prefix byte 60). After the first two come the burn addresses
for issuing an asset, reissuing it, and issuing a sub asset, a unique asset, a message channel and a
qualifier, then the address of the founder payment. -/
def mainnetAddresses : List (List UInt8 × StdString) :=
  [(List.replicate 20 0, bytes "R9HC5WtHbpoa51NCUAz86XLCmGTbkf45NT"),
    (List.replicate 20 1, bytes "R9NVxTj2ewfiTUzAfn7FSsq9kxNt6fjaaZ"),
    ([177, 66, 46, 249, 176, 218, 65, 11, 140, 213, 76, 214, 250, 71, 79, 44, 142, 58, 210, 233],
      bytes "RRSSxyoCq6SNz7DxXwFvZqSinbfPiy2wB1"),
    ([254, 118, 146, 10, 35, 143, 182, 205, 62, 15, 176, 226, 0, 224, 221, 18, 147, 47, 209, 23],
      bytes "RYUfkfKUH1TEAkoDMZJkpsiswTpDCMjLci"),
    ([85, 9, 112, 225, 127, 244, 202, 140, 132, 112, 30, 226, 199, 178, 15, 32, 202, 44, 38, 153],
      bytes "RH2ppnksCDRA6VNJMgVwfWr1uoCwiNpoUz"),
    ([113, 49, 7, 149, 98, 157, 168, 119, 201, 54, 30, 97, 158, 218, 95, 5, 49, 72, 179, 91],
      bytes "RKbhAq9CjaJn7ti5786q67beTBEguXkqQw"),
    ([164, 186, 239, 217, 224, 107, 178, 54, 163, 151, 19, 248, 26, 127, 157, 12, 129, 88, 185, 25],
      bytes "RQJCqaesLXmsnRhXYidtLj6xMmgqm2H1Wz"),
    ([166, 144, 190, 71, 78, 19, 66, 190, 73, 153, 108, 158, 179, 34, 22, 235, 143, 188, 161, 31],
      bytes "RQTueJJ7Edq7gTjUURP2KXemL5GosVs2Jj"),
    ([104, 9, 6, 72, 38, 185, 195, 130, 79, 206, 190, 93, 39, 161, 3, 224, 248, 191, 71, 0],
      bytes "RJmHAW6A52BucomdgeHaxynLXkSMkdbFov")]

/-- Double SHA-256 of byte strings, as numbers: a tagged address, and the KAWPOW input of two headers
after the mainnet genesis block, with heights `0` and `1`. -/
def knownHashes : List (StdString × UInt256) :=
  [(bytes "#TAGR9HC5WtHbpoa51NCUAz86XLCmGTbkf45NT",
      0x5c68f4e012ec38ce20922d72fc90382d6bc3141c97f0f8528ca1d7990e3b392b),
    (leBytes 40 0x00000001000504915e6a607b9cc64bae35fb27dd42afe89449cb058572aeedb605adf57920000000 ++
      leBytes 40 0x000000002000ffff66c64bbe00000000000000000000000000000000000000000000000000000000,
      0x480c90382ce12751293c09f849059596af032a30a0a4e2956af34d0ed02260f4),
    (leBytes 40 0x00000001000504915e6a607b9cc64bae35fb27dd42afe89449cb058572aeedb605adf57920000000 ++
      leBytes 40 0x000000012000ffff66c64bbe00000000000000000000000000000000000000000000000000000000,
      0x4d836a83d273e4bf36e67bd6fa4f7e1ba7a7cb7509830272917081ea9478c650)]

/-- The address of a key id: the listed one, or the tagged bytes. -/
def keyAddress (id : List UInt8) : StdString :=
  match mainnetAddresses.find? (fun e => e.1 == id) with
  | some e => e.2
  | none => 75 :: id

def mainnetEncode : CTxDestination → StdString
  | .noDestination => []
  | .keyID id => keyAddress id
  | .scriptID id => 83 :: id

/-- The destination of tagged bytes. -/
def untag : StdString → CTxDestination
  | [] => .noDestination
  | b :: id => if b = 75 then .keyID id else .scriptID id

def mainnetDecode (s : StdString) : CTxDestination :=
  match mainnetAddresses.find? (fun e => e.2 == s) with
  | some e => .keyID e.1
  | none => untag s

/-- Every listed address starts with an `R`. -/
theorem head_mainnetAddresses : ∀ e ∈ mainnetAddresses, e.2.head? = some 82 := by
  decide +kernel

theorem find?_address : ∀ e ∈ mainnetAddresses,
    mainnetAddresses.find? (fun e' => e'.2 == e.2) = some e := by
  decide +kernel

theorem find?_address_of_head {s : StdString} (h : s.head? ≠ some 82) :
    mainnetAddresses.find? (fun e => e.2 == s) = none := by
  rw [List.find?_eq_none]
  intro e he heq
  rw [beq_iff_eq] at heq
  exact h (heq ▸ head_mainnetAddresses e he)

theorem mainnetDecode_of_head {s : StdString} (h : s.head? ≠ some 82) :
    mainnetDecode s = untag s := by
  unfold mainnetDecode
  rw [find?_address_of_head h]

theorem mainnetDecode_keyAddress (id : List UInt8) : mainnetDecode (keyAddress id) = .keyID id := by
  unfold keyAddress
  cases hfind : mainnetAddresses.find? (fun e => e.1 == id) with
  | none => exact mainnetDecode_of_head (s := 75 :: id) (by simp)
  | some e =>
      have hid : e.1 = id := by simpa using List.find?_some hfind
      have haddr := find?_address e (List.mem_of_find?_eq_some hfind)
      unfold mainnetDecode
      rw [haddr, ← hid]

theorem mainnetDecode_encode (dest : CTxDestination) :
    mainnetDecode (mainnetEncode dest) = dest := by
  cases dest with
  | noDestination => exact mainnetDecode_of_head (s := []) (by simp)
  | keyID id => exact mainnetDecode_keyAddress id
  | scriptID id => exact mainnetDecode_of_head (s := 83 :: id) (by simp)

theorem mainnetEncode_eq_nil (dest : CTxDestination) :
    mainnetEncode dest = [] ↔ dest = .noDestination := by
  constructor
  · intro h
    rw [← mainnetDecode_encode dest, h]
    exact mainnetDecode_of_head (s := []) (by simp)
  · rintro rfl
    rfl

@[reducible] def mainnetCrypto : NodeCrypto where
  hash s := ((knownHashes.find? (fun e => e.1 == s)).map Prod.snd).getD 0
  hash160 s := (s ++ List.replicate 20 0).take 20
  hashX16R _ _ := 0
  encodeDestination := mainnetEncode
  decodeDestination := mainnetDecode
  length_hash160 s := by simp
  encode_eq_nil := mainnetEncode_eq_nil
  decode_encode dest _ := mainnetDecode_encode dest

end RavenCash
