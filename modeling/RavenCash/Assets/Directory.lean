import RavenCash.Assets.Types
import RavenCash.Basic.Serialize
import RavenCash.Lib.Cursor

/-!
# The asset directories

The asset database holds its records of all kinds in one table, ordered by the bytes of their keys: a
flag and then the strings of the key with their sizes in front. `AssetDir`, `AddressDir` and
`AssetAddressDir` (`assetdb.cpp`) list the records of one kind, of one address or of one asset, a page at
a time. A negative start counts from the end; to find the end they count the entries first, and then go
back not to where they had started but to the first record of the table. There the loop stops at once
unless that record is an entry of the directory, as it always is for `AssetDir` but hardly ever for the
others.
-/

set_option autoImplicit false

namespace RavenCash

open Cursor

/-! ## The table -/

def ASSET_FLAG : UInt8 := 65
def ASSET_ADDRESS_QUANTITY_FLAG : UInt8 := 66
def ADDRESS_ASSET_QUANTITY_FLAG : UInt8 := 67
def MY_ASSET_FLAG : UInt8 := 77
def BLOCK_ASSET_UNDO_DATA : UInt8 := 85
def MEMPOOL_REISSUED_TX : UInt8 := 90

def MAX_DATABASE_RESULTS : Nat := 50000

/-- A record of the asset database, without the value where no directory reads it. -/
inductive DbRecord where
  | asset (data : CDatabasedAssetData)
  | assetAddressQuantity (assetName address : StdString) (quantity : CAmount)
  | addressAssetQuantity (address assetName : StdString) (quantity : CAmount)
  | myAsset (assetName : StdString)
  | blockUndoAssetData (blockhash : UInt256)
  | reissuedMempoolState
deriving DecidableEq

namespace DbRecord

def key : DbRecord → List UInt8
  | asset data => ASSET_FLAG :: serializeString data.asset.strName
  | assetAddressQuantity assetName address _ =>
    ASSET_ADDRESS_QUANTITY_FLAG :: (serializeString assetName ++ serializeString address)
  | addressAssetQuantity address assetName _ =>
    ADDRESS_ASSET_QUANTITY_FLAG :: (serializeString address ++ serializeString assetName)
  | myAsset assetName => MY_ASSET_FLAG :: serializeString assetName
  | blockUndoAssetData blockhash => BLOCK_ASSET_UNDO_DATA :: serializeUInt256 blockhash
  | reissuedMempoolState => [MEMPOOL_REISSUED_TX]

def strings : DbRecord → List StdString
  | asset data => [data.asset.strName]
  | assetAddressQuantity assetName address _ => [assetName, address]
  | addressAssetQuantity address assetName _ => [address, assetName]
  | myAsset assetName => [assetName]
  | blockUndoAssetData _ => []
  | reissuedMempoolState => []

end DbRecord

/-- The content of the database: each key once and in order, with strings that can be read back, and no
more records than a `long` can count. -/
structure AssetsTable where
  records : List DbRecord
  sorted : records.Pairwise fun r s => r.key < s.key
  readable : ∀ r ∈ records, ∀ s ∈ r.strings, s.length ≤ MAX_SIZE
  countable : records.length < 2 ^ 63

/-! ## The directories -/

/-- What one of the functions lists: the records its loop goes on at, those of them it keeps, and the
key it seeks to. -/
structure Directory (β : Type) where
  row : DbRecord → Option β
  keep : β → Bool
  seekKey : List UInt8

namespace Directory

variable {β : Type}

/-- All entries, in the order of the keys. -/
def entries (d : Directory β) (db : AssetsTable) : List β := (db.records.filterMap d.row).filter d.keep

/-- The count of the entries from the seek position to the end of the table. -/
def total (d : Directory β) (db : AssetsTable) : Nat :=
  ((seek DbRecord.key d.seekKey db.records).filterMap d.row).countP d.keep

/-- A negative start is added to the count as a `long` and becomes a `size_t`; the cursor is then at the
first record of the table. -/
def list (d : Directory β) (db : AssetsTable) (limit : Nat) (start : Int) : List β :=
  if 0 ≤ start then
    readPage d.row d.keep limit start.toNat 0 0 (seek DbRecord.key d.seekKey db.records)
  else readPage d.row d.keep limit ((d.total db + start) % 2 ^ 64).toNat 0 0 db.records

end Directory

/-- Asset names that the filter of `AssetDir` lets through; a final `*` stands for anything. -/
def matchesFilter (filter name : StdString) : Bool :=
  let wildcard := filter.getLast? == some 42
  let pre := if wildcard then filter.dropLast else filter
  pre.isEmpty || wildcard && pre.isPrefixOf name || !wildcard && name == pre

def assetRow : DbRecord → Option CDatabasedAssetData
  | .asset data => some data
  | _ => none

def addressRow (address : StdString) : DbRecord → Option (StdString × CAmount)
  | .addressAssetQuantity address' assetName amount => if address' = address then some (assetName, amount) else none
  | _ => none

def ownerRow (assetName : StdString) : DbRecord → Option (StdString × CAmount)
  | .assetAddressQuantity assetName' address amount => if assetName' = assetName then some (address, amount) else none
  | _ => none

def assetDirectory (filter : StdString) : Directory CDatabasedAssetData :=
  ⟨assetRow, fun data => matchesFilter filter data.asset.strName, ASSET_FLAG :: serializeString []⟩

def addressDirectory (address : StdString) : Directory (StdString × CAmount) :=
  ⟨addressRow address, fun _ => true,
    ADDRESS_ASSET_QUANTITY_FLAG :: (serializeString address ++ serializeString [])⟩

def ownerDirectory (assetName : StdString) : Directory (StdString × CAmount) :=
  ⟨ownerRow assetName, fun _ => true,
    ASSET_ADDRESS_QUANTITY_FLAG :: (serializeString assetName ++ serializeString [])⟩

def assetDir (db : AssetsTable) (filter : StdString) (count : Nat) (start : Int) : List CDatabasedAssetData :=
  (assetDirectory filter).list db count start

def addressDir (db : AssetsTable) (address : StdString) (count : Nat) (start : Int) :
    List (StdString × CAmount) :=
  (addressDirectory address).list db (min count MAX_DATABASE_RESULTS) start

def assetAddressDir (db : AssetsTable) (assetName : StdString) (count : Nat) (start : Int) :
    List (StdString × CAmount) :=
  (ownerDirectory assetName).list db (min count MAX_DATABASE_RESULTS) start

/-- `AssetAddressDir` with `fGetTotal`. -/
def assetAddressTotal (db : AssetsTable) (assetName : StdString) : Nat := (ownerDirectory assetName).total db

/-! ## Strings in keys -/

theorem leBytes_append_inj {k m n : Nat} {x y : List UInt8} (h : leBytes k m ++ x = leBytes k n ++ y)
    (hm : m < 256 ^ k) (hn : n < 256 ^ k) : m = n := by
  have hbytes := (List.append_inj h (by simp)).1
  have hnat := congrArg leNat hbytes
  rwa [leNat_leBytes, leNat_leBytes, Nat.mod_eq_of_lt hm, Nat.mod_eq_of_lt hn] at hnat

/-- The first byte of a size: the size itself, or how many bytes follow. -/
theorem writeCompactSize_eq (n : Nat) :
    (n < 253 ∧ writeCompactSize n = [n.toUInt8]) ∨
      (253 ≤ n ∧ n ≤ 0xffff ∧ writeCompactSize n = 253 :: leBytes 2 n) ∨
      (0xffff < n ∧ n ≤ 0xffffffff ∧ writeCompactSize n = 254 :: leBytes 4 n) ∨
      (0xffffffff < n ∧ writeCompactSize n = 255 :: leBytes 8 n) := by
  rw [writeCompactSize]
  split
  · next h =>
    refine .inl ⟨h, ?_⟩
    rw [leBytes, leBytes, Nat.mod_eq_of_lt (by omega)]
  split
  · exact .inr (.inl ⟨by omega, by omega, rfl⟩)
  split
  · exact .inr (.inr (.inl ⟨by omega, by omega, rfl⟩))
  · exact .inr (.inr (.inr ⟨by omega, rfl⟩))

theorem toUInt8_ne {n : Nat} (hn : n < 253) {b : UInt8} (hb : 253 ≤ b.toNat) : n.toUInt8 ≠ b := by
  rintro rfl
  rw [Nat.toUInt8_eq, UInt8.toNat_ofNat'] at hb
  omega

theorem writeCompactSize_inj {m n : Nat} {x y : List UInt8}
    (h : writeCompactSize m ++ x = writeCompactSize n ++ y) (hn : n ≤ 0xffffffff) : m = n := by
  obtain ⟨hm, em⟩ | ⟨hm, hm', em⟩ | ⟨hm, hm', em⟩ | ⟨hm, em⟩ := writeCompactSize_eq m <;>
    obtain ⟨hn', en⟩ | ⟨hn', hn'', en⟩ | ⟨hn', hn'', en⟩ | ⟨hn', en⟩ := writeCompactSize_eq n <;>
    rw [em, en, List.cons_append, List.cons_append, List.cons.injEq] at h <;>
    try omega
  · have hnat := congrArg UInt8.toNat h.1
    rw [Nat.toUInt8_eq, Nat.toUInt8_eq, UInt8.toNat_ofNat', UInt8.toNat_ofNat'] at hnat
    omega
  · exact absurd h.1 (toUInt8_ne hm (by decide))
  · exact absurd h.1 (toUInt8_ne hm (by decide))
  · exact absurd h.1.symm (toUInt8_ne hn' (by decide))
  · exact leBytes_append_inj h.2 (by omega) (by omega)
  · exact absurd h.1 (by decide)
  · exact absurd h.1.symm (toUInt8_ne hn' (by decide))
  · exact absurd h.1 (by decide)
  · exact leBytes_append_inj h.2 (by omega) (by omega)
  · exact absurd h.1.symm (toUInt8_ne hn' (by decide))
  · exact absurd h.1 (by decide)
  · exact absurd h.1 (by decide)

/-- No serialized string begins another one. -/
theorem serializeString_prefix_iff {s t : StdString} (ht : t.length ≤ MAX_SIZE) (rest : List UInt8) :
    serializeString s <+: serializeString t ++ rest ↔ t = s := by
  constructor
  · rintro ⟨x, hx⟩
    rw [serializeString, serializeString, List.append_assoc, List.append_assoc] at hx
    have hlen := writeCompactSize_inj hx (ht.trans (by decide))
    rw [hlen] at hx
    exact (List.append_inj (List.append_cancel_left hx) hlen).1.symm
  · rintro rfl
    exact List.prefix_append _ _

theorem serializeString_ne_nil (s : StdString) : serializeString s ≠ [] := by
  intro h
  obtain ⟨-, e⟩ | ⟨-, -, e⟩ | ⟨-, -, e⟩ | ⟨-, e⟩ := writeCompactSize_eq s.length <;>
    simp [serializeString, e] at h

/-- The key sought is the least one with its prefix. -/
theorem not_append_lt {x : List UInt8} (hx : x ≠ []) (p : List UInt8) :
    ¬ p ++ x < p ++ serializeString [] := by
  induction p with
  | nil =>
    obtain ⟨b, t, rfl⟩ := List.exists_cons_of_ne_nil hx
    show ¬ b :: t < [0]
    rw [List.cons_lt_cons_iff]
    rintro (hb | ⟨-, ht⟩)
    · exact UInt8.not_lt_zero hb
    · exact List.not_lt_nil t ht
  | cons c p ih =>
    rw [List.cons_append, List.cons_append, List.cons_lt_cons_iff]
    rintro (hc | ⟨-, h⟩)
    · exact UInt8.lt_irrefl c hc
    · exact ih h

/-! ## Where the entries are -/

namespace Directory

variable {β : Type}

/-- The first record of the table is one of the directory's. -/
def StartsTable (d : Directory β) (db : AssetsTable) : Prop := ((db.records.head?).bind d.row).isSome

/-- What a negative start needs: it reaches no further back than the first entry, and the first record of
the table, where the cursor is, is one of the directory's. -/
def ReachesBack (d : Directory β) (db : AssetsTable) (count : Nat) (start : Int) : Prop :=
  0 ≤ start ∨ count = 0 ∨ d.entries db = [] ∨ d.StartsTable db ∧ -start ≤ (d.entries db).length

/-- The records of a directory are those with a certain key prefix, and it seeks to the first key with
that prefix. -/
structure HasPrefix (d : Directory β) (p : List UInt8) (db : AssetsTable) : Prop where
  rows : RowsHavePrefix DbRecord.key d.row p db.records
  seekKey : d.seekKey = p ++ serializeString []
  longer : ∀ r ∈ db.records, (d.row r).isSome → r.key ≠ p

variable {d : Directory β} {p : List UInt8} {db : AssetsTable}

theorem HasPrefix.least (h : d.HasPrefix p db) {r : DbRecord} (hr : r ∈ db.records) (hrow : (d.row r).isSome) :
    ¬ r.key < p ++ serializeString [] := by
  obtain ⟨x, hx⟩ := (h.rows r hr).mp hrow
  rw [← hx]
  refine not_append_lt (fun hnil => h.longer r hr hrow ?_) p
  rw [← hx, hnil, List.append_nil]

theorem HasPrefix.total (h : d.HasPrefix p db) : d.total db = (d.entries db).length := by
  rw [Directory.total, h.seekKey, filterMap_seek fun r hr => h.least hr, entries, List.countP_eq_length_filter]

theorem HasPrefix.list_of_nonneg (h : d.HasPrefix p db) (limit : Nat) {start : Int} (hstart : 0 ≤ start) :
    d.list db limit start = ((d.entries db).drop start.toNat).take limit := by
  rw [list, if_pos hstart, readPage_eq, h.seekKey, rows_seek db.sorted h.rows fun r hr => h.least hr]
  rfl

theorem HasPrefix.list_of_neg (h : d.HasPrefix p db) (limit : Nat) {start : Int} (hstart : ¬ 0 ≤ start)
    (hfirst : d.StartsTable db) : d.list db limit start =
      ((d.entries db).drop (((d.entries db).length + start) % 2 ^ 64).toNat).take limit := by
  rw [list, if_neg hstart, readPage_eq, rows_of_head db.sorted h.rows hfirst, h.total]
  rfl

theorem list_of_not_startsTable {limit : Nat} {start : Int} (hstart : ¬ 0 ≤ start)
    (hfirst : ¬ d.StartsTable db) : d.list db limit start = [] := by
  rw [list, if_neg hstart, readPage_eq, rows_of_not_head hfirst]
  simp

theorem length_entries_lt (d : Directory β) (db : AssetsTable) : (d.entries db).length < 2 ^ 63 :=
  calc (d.entries db).length ≤ (db.records.filterMap d.row).length := List.length_filter_le _ _
    _ ≤ db.records.length := List.length_filterMap_le _ _
    _ < 2 ^ 63 := db.countable

end Directory

/-! ## Pages -/

/-- Listing is slicing: a page is the slice of the entries, and consecutive pages give the entries one
after the other, each once. -/
structure Paged {β : Type} (entries : List β) (page : Int → List β) (count : Nat) (start : Int) : Prop where
  slice : page start = slice entries count start
  concat : ∀ k, entries.length ≤ k * count →
    ((List.range k).flatMap fun i => page (i * count : Nat)) = entries

namespace Directory

variable {β : Type} {d : Directory β} {p : List UInt8} {db : AssetsTable}

theorem HasPrefix.concat_iff (h : d.HasPrefix p db) (count cap : Nat) :
    (∀ k, (d.entries db).length ≤ k * count →
      ((List.range k).flatMap fun i => d.list db (min count cap) (i * count : Nat)) = d.entries db) ↔
      count ≤ cap ∨ (d.entries db).length ≤ cap := by
  rw [← cappedPages_eq_iff]
  simp only [h.list_of_nonneg _ (Int.natCast_nonneg _), Int.toNat_natCast, cappedPages]

theorem HasPrefix.slice_iff (h : d.HasPrefix p db) {count cap : Nat} {start : Int}
    (hlong : -2 ^ 63 ≤ start) (hcap : count ≤ cap ∨ (d.entries db).length ≤ cap) :
    d.list db (min count cap) start = slice (d.entries db) count start ↔
      d.ReachesBack db count start := by
  rw [ReachesBack, ← List.length_eq_zero_iff]
  have huncut : ∀ i, ((d.entries db).drop i).take (min count cap) = ((d.entries db).drop i).take count := by
    intro i
    rw [List.take_eq_take_iff, List.length_drop]
    omega
  by_cases hstart : 0 ≤ start
  · simp [h.list_of_nonneg _ hstart, slice, hstart, huncut]
  have hlen := d.length_entries_lt db
  have hnil := slice_eq_nil_iff_of_neg (d.entries db) count (not_le.mp hstart)
  by_cases hfirst : d.StartsTable db
  · rw [h.list_of_neg _ hstart hfirst, huncut]
    by_cases hin : -start ≤ (d.entries db).length
    · have hskip : (((d.entries db).length + start) % 2 ^ 64).toNat =
          (d.entries db).length - start.natAbs := by
        rw [Int.emod_eq_of_lt (by omega) (by omega)]
        omega
      rw [hskip]
      simp [slice, hstart, hfirst, hin]
    · -- the sum is negative and becomes a number above every length
      have hskip : (d.entries db).length ≤ (((d.entries db).length + start) % 2 ^ 64).toNat := by
        rw [← Int.add_emod_right, Int.emod_eq_of_lt (by omega) (by omega)]
        omega
      rw [List.drop_of_length_le hskip, List.take_nil, eq_comm, hnil]
      omega
  · rw [list_of_not_startsTable hstart hfirst, eq_comm, hnil]
    simp [hstart, hfirst]

theorem HasPrefix.paged_iff (h : d.HasPrefix p db) (count cap : Nat) {start : Int} (hlong : -2 ^ 63 ≤ start) :
    Paged (d.entries db) (d.list db (min count cap)) count start ↔
      (count ≤ cap ∨ (d.entries db).length ≤ cap) ∧ d.ReachesBack db count start := by
  constructor
  · intro hpaged
    have hcap := (h.concat_iff count cap).mp hpaged.concat
    exact ⟨hcap, (h.slice_iff hlong hcap).mp hpaged.slice⟩
  · rintro ⟨hcap, hslice⟩
    exact ⟨(h.slice_iff hlong hcap).mpr hslice, (h.concat_iff count cap).mpr hcap⟩

end Directory

/-! ## The three directories -/

attribute [local simp] ASSET_FLAG ASSET_ADDRESS_QUANTITY_FLAG ADDRESS_ASSET_QUANTITY_FLAG MY_ASSET_FLAG
  BLOCK_ASSET_UNDO_DATA MEMPOOL_REISSUED_TX DbRecord.key

theorem assetDirectory_hasPrefix (filter : StdString) (db : AssetsTable) :
    (assetDirectory filter).HasPrefix [ASSET_FLAG] db where
  rows r _ := by cases r <;> simp [assetDirectory, assetRow]
  seekKey := rfl
  longer r _ := by cases r <;> simp [assetDirectory, assetRow, serializeString_ne_nil]

theorem addressDirectory_hasPrefix (address : StdString) (db : AssetsTable) :
    (addressDirectory address).HasPrefix (ADDRESS_ASSET_QUANTITY_FLAG :: serializeString address) db where
  rows r hr := by
    cases r with
    | addressAssetQuantity address' assetName amount =>
      have hread := db.readable _ hr address' (by simp [DbRecord.strings])
      simp [addressDirectory, addressRow, serializeString_prefix_iff hread]
    | _ => simp [addressDirectory, addressRow]
  seekKey := rfl
  longer r _ := by
    cases r with
    | addressAssetQuantity address' assetName amount =>
      by_cases h : address' = address <;> simp [addressDirectory, addressRow, h, serializeString_ne_nil]
    | _ => simp [addressDirectory, addressRow]

theorem ownerDirectory_hasPrefix (assetName : StdString) (db : AssetsTable) :
    (ownerDirectory assetName).HasPrefix (ASSET_ADDRESS_QUANTITY_FLAG :: serializeString assetName) db where
  rows r hr := by
    cases r with
    | assetAddressQuantity assetName' address amount =>
      have hread := db.readable _ hr assetName' (by simp [DbRecord.strings])
      simp [ownerDirectory, ownerRow, serializeString_prefix_iff hread]
    | _ => simp [ownerDirectory, ownerRow]
  seekKey := rfl
  longer r _ := by
    cases r with
    | assetAddressQuantity assetName' address amount =>
      by_cases h : assetName' = assetName <;> simp [ownerDirectory, ownerRow, h, serializeString_ne_nil]
    | _ => simp [ownerDirectory, ownerRow]

/-- The records of the assets come first, having the least flag. -/
theorem assetDirectory_startsTable {filter : StdString} {db : AssetsTable}
    (h : (assetDirectory filter).entries db ≠ []) : (assetDirectory filter).StartsTable db := by
  obtain ⟨data, hdata⟩ := List.exists_mem_of_ne_nil _ h
  obtain ⟨r, hr, hrow⟩ := List.mem_filterMap.mp (List.mem_of_mem_filter hdata)
  have hsorted := db.sorted
  rw [Directory.StartsTable]
  cases hrecords : db.records with
  | nil =>
    rw [hrecords] at hr
    cases hr
  | cons first rest =>
    rw [hrecords] at hr hsorted
    obtain rfl | hr := List.mem_cons.mp hr
    · simp [hrow]
    · have hlt := (List.pairwise_cons.mp hsorted).1 r hr
      cases r <;> simp [assetDirectory, assetRow] at hrow
      cases first <;> first | rfl | exact absurd hlt (by simp [List.cons_lt_cons_iff])

/-- Listing is slicing for the three functions if and only if no page is cut off at
`MAX_DATABASE_RESULTS` and a negative start, if it is one, reaches back. For `AssetDir` the first is no
condition, and of the second only that the start is not before the first entry. -/
theorem directories_paged_iff (db : AssetsTable) (filter address assetName : StdString) (count : Nat)
    (start : Int) (hlong : -2 ^ 63 ≤ start) :
    (Paged ((assetDirectory filter).entries db) (assetDir db filter count) count start ∧
      Paged ((addressDirectory address).entries db) (addressDir db address count) count start ∧
      Paged ((ownerDirectory assetName).entries db) (assetAddressDir db assetName count) count start) ↔
    (0 ≤ start ∨ count = 0 ∨ (assetDirectory filter).entries db = [] ∨
        -start ≤ ((assetDirectory filter).entries db).length) ∧
      ((count ≤ MAX_DATABASE_RESULTS ∨
          ((addressDirectory address).entries db).length ≤ MAX_DATABASE_RESULTS) ∧
        (addressDirectory address).ReachesBack db count start) ∧
      (count ≤ MAX_DATABASE_RESULTS ∨
          ((ownerDirectory assetName).entries db).length ≤ MAX_DATABASE_RESULTS) ∧
        (ownerDirectory assetName).ReachesBack db count start := by
  have hasset : Paged ((assetDirectory filter).entries db) (assetDir db filter count) count start ↔
      0 ≤ start ∨ count = 0 ∨ (assetDirectory filter).entries db = [] ∨
        -start ≤ ((assetDirectory filter).entries db).length := by
    have hpaged := (assetDirectory_hasPrefix filter db).paged_iff count count hlong
    rw [Nat.min_self] at hpaged
    refine hpaged.trans ⟨?_, ?_⟩
    · rintro ⟨-, h | h | h | ⟨-, h⟩⟩
      · exact .inl h
      · exact .inr (.inl h)
      · exact .inr (.inr (.inl h))
      · exact .inr (.inr (.inr h))
    · intro h
      refine ⟨.inl le_rfl, ?_⟩
      by_cases hnil : (assetDirectory filter).entries db = []
      · exact .inr (.inr (.inl hnil))
      · obtain h | h | h | h := h
        · exact .inl h
        · exact .inr (.inl h)
        · exact absurd h hnil
        · exact .inr (.inr (.inr ⟨assetDirectory_startsTable hnil, h⟩))
  exact and_congr hasset (and_congr ((addressDirectory_hasPrefix address db).paged_iff count _ hlong)
    ((ownerDirectory_hasPrefix assetName db).paged_iff count _ hlong))

def holderAddress : StdString := bytes "R9HC5WtHbpoa51NCUAz86XLCmGTbkf45NT"

/-- One asset, all of it at one address. -/
def singleHolder : AssetsTable where
  records :=
    [.asset ⟨{ strName := bytes "ABC", nAmount := 100000000 }, 100, 7⟩,
      .assetAddressQuantity (bytes "ABC") holderAddress 100000000,
      .addressAssetQuantity holderAddress (bytes "ABC") 100000000]
  sorted := by decide +kernel
  readable := by decide +kernel
  countable := by decide

theorem directories_paged_singleHolder :
    Paged ((assetDirectory (bytes "*")).entries singleHolder) (assetDir singleHolder (bytes "*") 10) 10 0 ∧
      Paged ((addressDirectory holderAddress).entries singleHolder)
        (addressDir singleHolder holderAddress 10) 10 0 ∧
      Paged ((ownerDirectory (bytes "ABC")).entries singleHolder)
        (assetAddressDir singleHolder (bytes "ABC") 10) 10 0 :=
  (directories_paged_iff singleHolder (bytes "*") holderAddress (bytes "ABC") 10 0 (by decide)).mpr
    ⟨.inl le_rfl, ⟨.inl (by decide), .inl le_rfl⟩, .inl (by decide), .inl le_rfl⟩

/-- The last asset of the address: the cursor goes back to the record of the asset itself, the loop ends
there and the list is empty. -/
theorem not_directories_paged_singleHolder :
    ¬ (Paged ((assetDirectory (bytes "*")).entries singleHolder) (assetDir singleHolder (bytes "*") 10) 10 (-1) ∧
      Paged ((addressDirectory holderAddress).entries singleHolder)
        (addressDir singleHolder holderAddress 10) 10 (-1) ∧
      Paged ((ownerDirectory (bytes "ABC")).entries singleHolder)
        (assetAddressDir singleHolder (bytes "ABC") 10) 10 (-1)) := by
  rintro ⟨-, haddress, -⟩
  have hempty : addressDir singleHolder holderAddress 10 (-1) = [] := by decide +kernel
  have hslice : slice ((addressDirectory holderAddress).entries singleHolder) 10 (-1) =
      [(bytes "ABC", 100000000)] := by decide +kernel
  have h := haddress.slice
  rw [hempty, hslice] at h
  cases h

end RavenCash
