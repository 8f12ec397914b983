import EthExecutive.Basic
import Mathlib.Data.Finset.Basic
import Mathlib.Logic.Function.Basic

/-! # commit()

`commit` of `State.h` flushes the dirty entries of an account cache into the
state trie in the cache's iteration order and returns their addresses.
`Account.h`, the tries and the database are not under src/ and are modelled
from the spec (§3, §4.3, §5): the cache and an overlay are lists with
distinct keys in iteration order, a trie is seen through its contents, a root
is a function of the contents, and the record `RLPStream s(4)` builds is a
structure of its four items. The result does not depend on the order as long
as no two new codes share a hash and no two new storage tries share a root.
-/

namespace EthExecutive

/-- The contents of a storage trie: the value stored under each key, if any. -/
abbrev StorageTrie := Word → Option Word

/-- A storage overlay (`unordered_map<u256, u256>`) in iteration order; its
keys are distinct. -/
structure StorageOverlay where
  entries : List (Word × Word)
  nodup : (entries.map Prod.fst).Nodup

/-- Modelled from the spec: an entry of the account cache (`Account`). -/
structure CachedAccount where
  nonce : Word
  balance : Word
  baseRoot : Hash
  storageOverlay : StorageOverlay
  codeHash : Hash
  code : Bytes
  isDirty : Bool
  isAlive : Bool
  hasNewCode : Bool

/-- The account cache (`AccountMap`, an `unordered_map<Address, Account>`) in
iteration order; its keys are distinct. -/
structure AccountMap where
  entries : List (Address × CachedAccount)
  nodup : (entries.map Prod.fst).Nodup

/-- The four items `RLPStream s(4)` holds for an alive account. -/
structure AccountRLP where
  nonce : Word
  balance : Word
  storageRoot : Hash
  codeHash : Hash
  deriving DecidableEq, Repr

/-- Modelled from the spec: what `commit` reads and writes through the state
trie: its entries, and in its database the storage tries by root, the code by
hash, and beside it the process-wide `CodeSizeCache`. -/
@[ext] structure TrieDB where
  accounts : Address → Option AccountRLP
  storageAt : Hash → StorageTrie
  code : Hash → Option Bytes
  codeSize : Hash → Option Nat

namespace TrieDB

/-- `db()->insert(ch, &code)` with `CodeSizeCache::instance().store(ch, size)`. -/
def storeCode (t : TrieDB) (h : Hash) (code : Bytes) : TrieDB :=
  { t with code := Function.update t.code h (some code),
           codeSize := Function.update t.codeSize h (some code.length) }

/-- What the database and the code-size cache hold under a hash. -/
def codeEntry (t : TrieDB) (h : Hash) : Option Bytes × Option Nat := (t.code h, t.codeSize h)

@[simp] theorem storeCode_accounts (t : TrieDB) (h : Hash) (code : Bytes) :
    (t.storeCode h code).accounts = t.accounts := rfl

@[simp] theorem storeCode_storageAt (t : TrieDB) (h : Hash) (code : Bytes) :
    (t.storeCode h code).storageAt = t.storageAt := rfl

/-- The nodes of a storage trie written into the database, found under its root. -/
def storeStorage (t : TrieDB) (r : Hash) (st : StorageTrie) : TrieDB :=
  { t with storageAt := Function.update t.storageAt r st }

@[simp] theorem storeStorage_accounts (t : TrieDB) (r : Hash) (st : StorageTrie) :
    (t.storeStorage r st).accounts = t.accounts := rfl

theorem codeEntry_storeCode (t : TrieDB) (h h' : Hash) (code : Bytes) :
    (t.storeCode h code).codeEntry h' =
      if h' = h then (some code, some code.length) else t.codeEntry h' := by
  by_cases hh : h' = h <;> simp [storeCode, codeEntry, hh]

end TrieDB

/-! ## The loop of `commit` -/

/-- One overlay entry written into the storage trie: `insert(k, rlp(v))` for a
nonzero value, `remove(k)` for zero. -/
def writeSlot (st : StorageTrie) (kv : Word × Word) : StorageTrie :=
  if kv.2 ≠ 0 then Function.update st kv.1 (some kv.2) else Function.update st kv.1 none

/-- The trie at `baseRoot` with the overlay written into it entry by entry. -/
def overlaidStorage (storageAt : Hash → StorageTrie) (c : CachedAccount) : StorageTrie :=
  c.storageOverlay.entries.foldl writeSlot (storageAt c.baseRoot)

/-- The storage root `commit` records: `baseRoot` for an empty overlay,
otherwise the root of the overlaid storage. -/
def storageRoot (rootOf : StorageTrie → Hash) (storageAt : Hash → StorageTrie)
    (c : CachedAccount) : Hash :=
  if c.storageOverlay.entries.isEmpty then c.baseRoot else rootOf (overlaidStorage storageAt c)

/-- The record `commit` inserts for an alive account. -/
def accountRecord (rootOf : StorageTrie → Hash) (storageAt : Hash → StorageTrie)
    (c : CachedAccount) : AccountRLP :=
  ⟨c.nonce, c.balance, storageRoot rootOf storageAt c, c.codeHash⟩

/-- The body of `commit`'s loop for a dirty entry: remove a dead account; for
an alive one, write a nonempty overlay into a storage trie over the database,
store new code under its hash and insert the four-item record. -/
def commitAccount (rootOf : StorageTrie → Hash) (t : TrieDB) (a : Address) (c : CachedAccount) :
    TrieDB :=
  if !c.isAlive then { t with accounts := Function.update t.accounts a none }
  else
    let t₁ := if c.storageOverlay.entries.isEmpty then t
      else t.storeStorage (rootOf (overlaidStorage t.storageAt c)) (overlaidStorage t.storageAt c)
    let t₂ := if c.hasNewCode then t₁.storeCode c.codeHash c.code else t₁
    { t₂ with accounts := Function.update t₂.accounts a (some (accountRecord rootOf t.storageAt c)) }

/-- One iteration of `commit`'s loop: flush a dirty entry and add its address
to the returned set. -/
def commitStep (rootOf : StorageTrie → Hash) (acc : Finset Address × TrieDB)
    (e : Address × CachedAccount) : Finset Address × TrieDB :=
  if e.2.isDirty then (insert e.1 acc.1, commitAccount rootOf acc.2 e.1 e.2) else acc

/-- `commit`: flush the dirty entries of the cache in its iteration order and
return their addresses. -/
def commit (rootOf : StorageTrie → Hash) (cache : AccountMap) (t : TrieDB) :
    Finset Address × TrieDB :=
  cache.entries.foldl (commitStep rootOf) (∅, t)

/-! ## What commit means -/

/-- What the storage trie holds for an overlay value: nothing for 0. -/
def slotValue (v : Word) : Option Word := if v = 0 then none else some v

/-- What `commit` leaves at an address whose cache entry is `c`, over the
entry `old` the trie had: `old` for a clean entry, nothing for a dead one, the
four-item record for an alive one. -/
def committedEntry (rootOf : StorageTrie → Hash) (storageAt : Hash → StorageTrie)
    (c : CachedAccount) (old : Option AccountRLP) : Option AccountRLP :=
  if c.isDirty then (if c.isAlive then some (accountRecord rootOf storageAt c) else none) else old

/-- The entry stores its new code at commit. -/
def CachedAccount.writesCode (c : CachedAccount) : Bool := c.isDirty && c.isAlive && c.hasNewCode

/-- No two entries that store new code store different code under one hash:
what makes the database's `insert` under a hash idempotent. -/
def CodesAgree (l : List (Address × CachedAccount)) : Prop :=
  ∀ e ∈ l, ∀ e' ∈ l, e.2.writesCode → e'.2.writesCode → e.2.codeHash = e'.2.codeHash →
    e.2.code = e'.2.code

theorem CodesAgree.mono {l l' : List (Address × CachedAccount)} (h : CodesAgree l) (hl : l' ⊆ l) :
    CodesAgree l' :=
  fun e he e' he' => h e (hl he) e' (hl he')

/-- The storage trie an entry writes into the database at commit, built over
`storageAt`: the overlaid storage of a dirty alive entry with a nonempty overlay. -/
def CachedAccount.writtenStorage (storageAt : Hash → StorageTrie) (c : CachedAccount) :
    Option StorageTrie :=
  if c.isDirty && c.isAlive && !c.storageOverlay.entries.isEmpty then
    some (overlaidStorage storageAt c)
  else none

/-- No two entries write different storage tries under one root, and none
writes under the base root of a dirty alive entry anything but the trie
already there: what makes the database's writes by root idempotent. -/
def RootsAgree (rootOf : StorageTrie → Hash) (storageAt : Hash → StorageTrie)
    (l : List (Address × CachedAccount)) : Prop :=
  ∀ e ∈ l, ∀ st, e.2.writtenStorage storageAt = some st →
    (∀ e' ∈ l, ∀ st', e'.2.writtenStorage storageAt = some st' → rootOf st = rootOf st' → st = st') ∧
    ∀ e' ∈ l, e'.2.isDirty → e'.2.isAlive → rootOf st = e'.2.baseRoot → st = storageAt e'.2.baseRoot

theorem RootsAgree.mono {rootOf : StorageTrie → Hash} {storageAt : Hash → StorageTrie}
    {l l' : List (Address × CachedAccount)} (h : RootsAgree rootOf storageAt l) (hl : l' ⊆ l) :
    RootsAgree rootOf storageAt l' :=
  fun e he st hw => ⟨fun e' he' => (h e (hl he) st hw).1 e' (hl he'),
    fun e' he' => (h e (hl he) st hw).2 e' (hl he')⟩

/-- Two databases hold the same trie at the base root of every dirty alive
entry. -/
def BasesAgree (storageAt storageAt' : Hash → StorageTrie) (l : List (Address × CachedAccount)) :
    Prop :=
  ∀ e ∈ l, e.2.isDirty → e.2.isAlive → storageAt e.2.baseRoot = storageAt' e.2.baseRoot

section Congr

variable {rootOf : StorageTrie → Hash} {sa sa' : Hash → StorageTrie} {c : CachedAccount}

/-- What `commit` computes for an entry reads the database at its base root only. -/
theorem writtenStorage_congr (h : c.isDirty → c.isAlive → sa c.baseRoot = sa' c.baseRoot) :
    c.writtenStorage sa = c.writtenStorage sa' := by
  unfold CachedAccount.writtenStorage overlaidStorage
  cases hd : c.isDirty <;> cases ha : c.isAlive <;> simp [h, hd, ha]

theorem committedEntry_congr (h : c.isDirty → c.isAlive → sa c.baseRoot = sa' c.baseRoot)
    (old : Option AccountRLP) : committedEntry rootOf sa c old = committedEntry rootOf sa' c old := by
  unfold committedEntry accountRecord storageRoot overlaidStorage
  cases hd : c.isDirty <;> cases ha : c.isAlive <;> simp [h, hd, ha]

end Congr

/-! ## The storage trie -/

section Storage

variable {o : List (Word × Word)} {k v : Word}

theorem writeSlot_apply (st : StorageTrie) (kv : Word × Word) (k : Word) :
    writeSlot st kv k = if k = kv.1 then slotValue kv.2 else st k := by
  unfold writeSlot slotValue
  by_cases hv : kv.2 = 0
  · rw [if_neg (not_not.mpr hv), if_pos hv, Function.update_apply]
  · rw [if_pos hv, if_neg hv, Function.update_apply]

/-- A key the overlay does not hold keeps its base value. -/
theorem foldl_writeSlot_of_not_mem (hk : k ∉ o.map Prod.fst) (st : StorageTrie) :
    o.foldl writeSlot st k = st k := by
  induction o generalizing st with
  | nil => rfl
  | cons kv o ih =>
      simp only [List.map_cons, List.mem_cons, not_or] at hk
      rw [List.foldl_cons, ih hk.2, writeSlot_apply, if_neg hk.1]

/-- A key the overlay holds ends with the overlay's value, and with nothing
for 0. -/
theorem foldl_writeSlot_of_mem (ho : (o.map Prod.fst).Nodup) (hkv : (k, v) ∈ o) (st : StorageTrie) :
    o.foldl writeSlot st k = slotValue v := by
  induction o generalizing st with
  | nil => cases hkv
  | cons kv o ih =>
      rw [List.map_cons, List.nodup_cons] at ho
      rw [List.foldl_cons]
      rcases List.mem_cons.mp hkv with rfl | hkv
      · rw [foldl_writeSlot_of_not_mem ho.1, writeSlot_apply, if_pos rfl]
      · exact ih ho.2 hkv _

/-- Writing an overlay does not depend on its order. -/
theorem foldl_writeSlot_perm {o' : List (Word × Word)} (ho : (o.map Prod.fst).Nodup)
    (ho' : (o'.map Prod.fst).Nodup) (hp : o'.Perm o) (st : StorageTrie) :
    o'.foldl writeSlot st = o.foldl writeSlot st := by
  funext k
  by_cases hk : k ∈ o.map Prod.fst
  · obtain ⟨⟨k', v⟩, hkv, rfl⟩ := List.mem_map.mp hk
    rw [foldl_writeSlot_of_mem ho' (hp.mem_iff.mpr hkv), foldl_writeSlot_of_mem ho hkv]
  · rw [foldl_writeSlot_of_not_mem (fun h => hk ((hp.map Prod.fst).mem_iff.mp h)),
      foldl_writeSlot_of_not_mem hk]

theorem slotValue_getD (v : Word) : (slotValue v).getD 0 = v := by
  unfold slotValue
  split
  · next hv => rw [hv]; rfl
  · rfl

theorem slotValue_ne_some_zero (v : Word) : slotValue v ≠ some 0 := by
  by_cases hv : v = 0 <;> simp [slotValue, hv]

end Storage

/-! ## One step of the loop -/

section Step

variable (rootOf : StorageTrie → Hash) (acc : Finset Address × TrieDB) (e : Address × CachedAccount)

theorem commitStep_fst : (commitStep rootOf acc e).1 = if e.2.isDirty then insert e.1 acc.1 else acc.1 := by
  unfold commitStep; split <;> rfl

/-- A step writes the storage trie its entry builds, under that trie's root. -/
theorem commitStep_storageAt : (commitStep rootOf acc e).2.storageAt =
    match e.2.writtenStorage acc.2.storageAt with
    | some st => Function.update acc.2.storageAt (rootOf st) st
    | none => acc.2.storageAt := by
  unfold commitStep commitAccount CachedAccount.writtenStorage
  cases e.2.isDirty <;> cases e.2.isAlive <;> cases e.2.storageOverlay.entries.isEmpty <;>
    cases e.2.hasNewCode <;> simp [TrieDB.storeStorage]

/-- A step changes the trie at its own address only, as `committedEntry` says. -/
theorem commitStep_accounts (b : Address) :
    (commitStep rootOf acc e).2.accounts b =
      if b = e.1 then committedEntry rootOf acc.2.storageAt e.2 (acc.2.accounts b) else acc.2.accounts b := by
  unfold commitStep commitAccount committedEntry
  by_cases hb : b = e.1 <;> cases e.2.isDirty <;> cases e.2.isAlive <;>
    cases e.2.storageOverlay.entries.isEmpty <;> cases e.2.hasNewCode <;> simp [hb]

/-- A step stores code under its entry's hash only, and only new code. -/
theorem commitStep_codeEntry (h : Hash) :
    (commitStep rootOf acc e).2.codeEntry h =
      if e.2.writesCode ∧ h = e.2.codeHash then (some e.2.code, some e.2.code.length)
      else acc.2.codeEntry h := by
  unfold commitStep commitAccount CachedAccount.writesCode
  by_cases hh : h = e.2.codeHash <;> cases e.2.isDirty <;> cases e.2.isAlive <;>
    cases e.2.storageOverlay.entries.isEmpty <;> cases e.2.hasNewCode <;>
    simp [TrieDB.codeEntry, TrieDB.storeCode, TrieDB.storeStorage, hh]

end Step

/-! ## The whole loop -/

section Loop

variable (rootOf : StorageTrie → Hash) {l : List (Address × CachedAccount)}

theorem foldl_commitStep_fst (acc : Finset Address × TrieDB) :
    (l.foldl (commitStep rootOf) acc).1 = acc.1 ∪ ((l.filter (·.2.isDirty)).map Prod.fst).toFinset := by
  induction l generalizing acc with
  | nil => simp
  | cons e l ih =>
      rw [List.foldl_cons, ih, commitStep_fst]
      by_cases hd : e.2.isDirty <;> simp [hd, List.filter_cons, Finset.insert_union]

/-- A step keeps the trie at every base root of a cache whose roots agree. -/
theorem BasesAgree.commitStep {sa : Hash → StorageTrie} {L : List (Address × CachedAccount)}
    (hroots : RootsAgree rootOf sa L) {e : Address × CachedAccount} (he : e ∈ L)
    {acc : Finset Address × TrieDB} (hb : BasesAgree acc.2.storageAt sa L) :
    BasesAgree (commitStep rootOf acc e).2.storageAt sa L := by
  intro e' he' hd ha
  rw [commitStep_storageAt, writtenStorage_congr (hb e he)]
  cases hw : e.2.writtenStorage sa with
  | none => exact hb e' he' hd ha
  | some st =>
      show Function.update acc.2.storageAt (rootOf st) st e'.2.baseRoot = _
      rw [Function.update_apply]
      split
      · next hr => exact (hroots e he st hw).2 e' he' hd ha hr.symm
      · exact hb e' he' hd ha

variable {sa : Hash → StorageTrie} {L : List (Address × CachedAccount)}

theorem foldl_commitStep_basesAgree (hroots : RootsAgree rootOf sa L) (hlL : l ⊆ L)
    (acc : Finset Address × TrieDB) (hb : BasesAgree acc.2.storageAt sa L) :
    BasesAgree (l.foldl (commitStep rootOf) acc).2.storageAt sa L := by
  induction l generalizing acc with
  | nil => exact hb
  | cons e l ih =>
      exact ih (fun x hx => hlL (List.mem_cons_of_mem e hx)) _
        (hb.commitStep rootOf hroots (hlL (List.mem_cons_self e l)))

/-- A root no entry writes a storage trie under keeps what it held. -/
theorem foldl_commitStep_storageAt_of_not_writes (hroots : RootsAgree rootOf sa L) (hlL : l ⊆ L)
    {r : Hash} (hno : ∀ e ∈ l, ∀ st, e.2.writtenStorage sa = some st → rootOf st ≠ r)
    (acc : Finset Address × TrieDB) (hb : BasesAgree acc.2.storageAt sa L) :
    (l.foldl (commitStep rootOf) acc).2.storageAt r = acc.2.storageAt r := by
  induction l generalizing acc with
  | nil => rfl
  | cons e l ih =>
      have he := hlL (List.mem_cons_self e l)
      rw [List.foldl_cons, ih (fun x hx => hlL (List.mem_cons_of_mem e hx))
        (fun e' he' => hno e' (List.mem_cons_of_mem e he')) _ (hb.commitStep rootOf hroots he),
        commitStep_storageAt, writtenStorage_congr (hb e he)]
      cases hw : e.2.writtenStorage sa with
      | none => rfl
      | some st => exact Function.update_noteq (hno e (List.mem_cons_self e l) st hw).symm _ _

/-- A root some entry writes a storage trie under ends holding that trie,
whichever entry writing under it comes last. -/
theorem foldl_commitStep_storageAt_of_writes (hroots : RootsAgree rootOf sa L) (hlL : l ⊆ L)
    {e : Address × CachedAccount} (he : e ∈ l) {st : StorageTrie} (hw : e.2.writtenStorage sa = some st)
    (acc : Finset Address × TrieDB) (hb : BasesAgree acc.2.storageAt sa L) :
    (l.foldl (commitStep rootOf) acc).2.storageAt (rootOf st) = st := by
  induction l generalizing acc e st with
  | nil => cases he
  | cons x l ih =>
      have hx := hlL (List.mem_cons_self x l)
      have hsub : l ⊆ L := fun y hy => hlL (List.mem_cons_of_mem x hy)
      rw [List.foldl_cons]
      by_cases hl : ∃ e' ∈ l, ∃ st', e'.2.writtenStorage sa = some st' ∧ rootOf st' = rootOf st
      · obtain ⟨e', he', st', hw', hr⟩ := hl
        have hst := (hroots e' (hsub he') st' hw').1 e (hlL he) st hw hr
        rw [← hr, ih hsub he' hw' _ (hb.commitStep rootOf hroots hx), hst]
      · push_neg at hl
        rw [foldl_commitStep_storageAt_of_not_writes rootOf hroots hsub hl _ (hb.commitStep rootOf hroots hx),
          commitStep_storageAt, writtenStorage_congr (hb x hx)]
        rcases List.mem_cons.mp he with rfl | he
        · rw [hw]; exact Function.update_same _ _ _
        · exact absurd rfl (hl e he st hw)

/-- An address the cache does not hold keeps its entry. -/
theorem foldl_commitStep_accounts_of_not_mem {a : Address} (ha : a ∉ l.map Prod.fst)
    (acc : Finset Address × TrieDB) :
    (l.foldl (commitStep rootOf) acc).2.accounts a = acc.2.accounts a := by
  induction l generalizing acc with
  | nil => rfl
  | cons e l ih =>
      simp only [List.map_cons, List.mem_cons, not_or] at ha
      rw [List.foldl_cons, ih ha.2, commitStep_accounts, if_neg ha.1]

/-- An address the cache holds ends with what its own entry makes of it, over
the trie the database held at its base root. -/
theorem foldl_commitStep_accounts_of_mem (hroots : RootsAgree rootOf sa L) (hlL : l ⊆ L)
    (hl : (l.map Prod.fst).Nodup) {a : Address} {c : CachedAccount} (hc : (a, c) ∈ l)
    (acc : Finset Address × TrieDB) (hb : BasesAgree acc.2.storageAt sa L) :
    (l.foldl (commitStep rootOf) acc).2.accounts a = committedEntry rootOf sa c (acc.2.accounts a) := by
  induction l generalizing acc with
  | nil => cases hc
  | cons e l ih =>
      have he := hlL (List.mem_cons_self e l)
      rw [List.map_cons, List.nodup_cons] at hl
      rw [List.foldl_cons]
      rcases List.mem_cons.mp hc with rfl | hc
      · rw [foldl_commitStep_accounts_of_not_mem rootOf hl.1, commitStep_accounts, if_pos rfl,
          committedEntry_congr (hb _ he)]
      · have hne : a ≠ e.1 := fun h => hl.1 (h ▸ List.mem_map_of_mem Prod.fst hc)
        rw [ih (fun x hx => hlL (List.mem_cons_of_mem e hx)) hl.2 hc _ (hb.commitStep rootOf hroots he),
          commitStep_accounts, if_neg hne]

/-- A hash no entry stores new code under keeps what it held. -/
theorem foldl_commitStep_codeEntry_of_not_writes {h : Hash}
    (hno : ∀ e ∈ l, e.2.writesCode → e.2.codeHash ≠ h) (acc : Finset Address × TrieDB) :
    (l.foldl (commitStep rootOf) acc).2.codeEntry h = acc.2.codeEntry h := by
  induction l generalizing acc with
  | nil => rfl
  | cons e l ih =>
      rw [List.foldl_cons, ih fun e' he' => hno e' (List.mem_cons_of_mem e he'), commitStep_codeEntry,
        if_neg fun hw => hno e (List.mem_cons_self e l) hw.1 hw.2.symm]

/-- The code of an entry with new code is stored under its hash, whichever
entry that shares the hash comes last. -/
theorem foldl_commitStep_codeEntry_of_writes (hagree : CodesAgree l) {e : Address × CachedAccount}
    (he : e ∈ l) (hw : e.2.writesCode) (acc : Finset Address × TrieDB) :
    (l.foldl (commitStep rootOf) acc).2.codeEntry e.2.codeHash = (some e.2.code, some e.2.code.length) := by
  induction l generalizing acc e with
  | nil => cases he
  | cons x l ih =>
      rw [List.foldl_cons]
      by_cases hl : ∃ e' ∈ l, e'.2.writesCode ∧ e'.2.codeHash = e.2.codeHash
      · obtain ⟨e', he', hw', hh⟩ := hl
        have hcode := hagree e' (List.mem_cons_of_mem x he') e he hw' hw hh
        rw [← hh, ih (hagree.mono (List.subset_cons_self x l)) he' hw', hcode]
      · push_neg at hl
        rw [foldl_commitStep_codeEntry_of_not_writes rootOf hl, commitStep_codeEntry]
        rcases List.mem_cons.mp he with rfl | he
        · rw [if_pos ⟨hw, rfl⟩]
        · exact absurd rfl (hl e he hw)

end Loop

/-! ## commit -/

section Commit

variable (rootOf : StorageTrie → Hash) (cache : AccountMap) (t : TrieDB)

/-- Order independence: a cache iterated in another order commits the same
set and leaves the same trie, database and code-size cache. -/
theorem commit_perm {cache' : AccountMap} (hagree : CodesAgree cache.entries)
    (hroots : RootsAgree rootOf t.storageAt cache.entries) (hp : cache'.entries.Perm cache.entries) :
    commit rootOf cache' t = commit rootOf cache t := by
  have hroots' := hroots.mono hp.subset
  have hb : ∀ l, BasesAgree ((∅ : Finset Address), t).2.storageAt t.storageAt l := fun _ _ _ _ _ => rfl
  have hcode : ∀ h, (commit rootOf cache' t).2.codeEntry h = (commit rootOf cache t).2.codeEntry h := by
    intro h
    by_cases hw : ∃ e ∈ cache.entries, e.2.writesCode ∧ e.2.codeHash = h
    · obtain ⟨e, he, hwe, rfl⟩ := hw
      rw [commit, commit, foldl_commitStep_codeEntry_of_writes rootOf (hagree.mono hp.subset)
        (hp.mem_iff.mpr he) hwe, foldl_commitStep_codeEntry_of_writes rootOf hagree he hwe]
    · push_neg at hw
      rw [commit, commit, foldl_commitStep_codeEntry_of_not_writes rootOf
        (fun e he => hw e (hp.subset he)), foldl_commitStep_codeEntry_of_not_writes rootOf hw]
  refine Prod.ext ?_ (TrieDB.ext ?_ ?_ (funext fun h => congrArg Prod.fst (hcode h))
    (funext fun h => congrArg Prod.snd (hcode h)))
  · rw [commit, commit, foldl_commitStep_fst, foldl_commitStep_fst]
    exact congrArg _ (List.toFinset_eq_of_perm _ _ ((hp.filter _).map _))
  · funext a
    by_cases ha : a ∈ cache.entries.map Prod.fst
    · obtain ⟨⟨a', c⟩, hc, rfl⟩ := List.mem_map.mp ha
      rw [commit, commit, foldl_commitStep_accounts_of_mem rootOf hroots' (List.Subset.refl _)
          cache'.nodup (hp.mem_iff.mpr hc) _ (hb _),
        foldl_commitStep_accounts_of_mem rootOf hroots (List.Subset.refl _) cache.nodup hc _ (hb _)]
    · rw [commit, commit, foldl_commitStep_accounts_of_not_mem rootOf
        (fun h => ha ((hp.map Prod.fst).mem_iff.mp h)), foldl_commitStep_accounts_of_not_mem rootOf ha]
  · funext r
    by_cases hw : ∃ e ∈ cache.entries, ∃ st, e.2.writtenStorage t.storageAt = some st ∧ rootOf st = r
    · obtain ⟨e, he, st, hwe, rfl⟩ := hw
      rw [commit, commit, foldl_commitStep_storageAt_of_writes rootOf hroots' (List.Subset.refl _)
          (hp.mem_iff.mpr he) hwe _ (hb _),
        foldl_commitStep_storageAt_of_writes rootOf hroots (List.Subset.refl _) he hwe _ (hb _)]
    · push_neg at hw
      rw [commit, commit, foldl_commitStep_storageAt_of_not_writes rootOf hroots' (List.Subset.refl _)
          (fun e he => hw e (hp.subset he)) _ (hb _),
        foldl_commitStep_storageAt_of_not_writes rootOf hroots (List.Subset.refl _) hw _ (hb _)]

/-- An overlay iterated in another order gives the same storage root. -/
theorem storageRoot_perm (storageAt : Hash → StorageTrie) (c : CachedAccount) {o : StorageOverlay}
    (hp : o.entries.Perm c.storageOverlay.entries) :
    storageRoot rootOf storageAt { c with storageOverlay := o } = storageRoot rootOf storageAt c := by
  have hempty : o.entries.isEmpty = c.storageOverlay.entries.isEmpty := by
    rw [Bool.eq_iff_iff, List.isEmpty_iff, List.isEmpty_iff, ← List.length_eq_zero,
      ← List.length_eq_zero, hp.length_eq]
  simp only [storageRoot, overlaidStorage, hempty,
    foldl_writeSlot_perm c.storageOverlay.nodup o.nodup hp]

/-- The database after `commit` holds, at the storage root it records for a
dirty alive entry, the base storage with the overlay written in. -/
theorem storageAt_commit (hroots : RootsAgree rootOf t.storageAt cache.entries) {a : Address}
    {c : CachedAccount} (hc : (a, c) ∈ cache.entries) (hd : c.isDirty) (hal : c.isAlive) :
    (commit rootOf cache t).2.storageAt (storageRoot rootOf t.storageAt c) =
      overlaidStorage t.storageAt c := by
  have hb : BasesAgree ((∅ : Finset Address), t).2.storageAt t.storageAt cache.entries :=
    fun _ _ _ _ => rfl
  unfold storageRoot
  split
  · next hempty =>
      rw [overlaidStorage, List.isEmpty_iff.mp hempty, List.foldl_nil]
      exact foldl_commitStep_basesAgree rootOf hroots (List.Subset.refl _) _ hb _ hc hd hal
  · next hne =>
      refine foldl_commitStep_storageAt_of_writes rootOf hroots (List.Subset.refl _) hc ?_ _ hb
      simp [CachedAccount.writtenStorage, hd, hal, hne]

/-- The meaning of `commit`, independent of order, for a cache whose new codes
do not collide under the hash and whose new storage tries agree by root. -/
theorem commit_meaning (sha3 : Bytes → Hash)
    (hcode : ∀ e ∈ cache.entries, e.2.hasNewCode → e.2.codeHash = sha3 e.2.code)
    (hsha3 : ∀ e ∈ cache.entries, ∀ e' ∈ cache.entries, e.2.hasNewCode → e'.2.hasNewCode →
      sha3 e.2.code = sha3 e'.2.code → e.2.code = e'.2.code)
    (hroots : RootsAgree rootOf t.storageAt cache.entries) :
    (commit rootOf cache t).1 = ((cache.entries.filter (·.2.isDirty)).map Prod.fst).toFinset ∧
    (∀ a, (∀ c, (a, c) ∈ cache.entries → c.isDirty = false) →
      (commit rootOf cache t).2.accounts a = t.accounts a) ∧
    (∀ a c, (a, c) ∈ cache.entries → c.isDirty →
      (commit rootOf cache t).2.accounts a =
        if c.isAlive then some ⟨c.nonce, c.balance, storageRoot rootOf t.storageAt c, c.codeHash⟩
        else none) ∧
    (∀ c : CachedAccount, c.storageOverlay.entries = [] → storageRoot rootOf t.storageAt c = c.baseRoot) ∧
    (∀ c : CachedAccount, c.storageOverlay.entries ≠ [] → ∃ st : StorageTrie,
      storageRoot rootOf t.storageAt c = rootOf st ∧
      (∀ k v, (k, v) ∈ c.storageOverlay.entries → (st k).getD 0 = v ∧ st k ≠ some 0) ∧
      ∀ k, k ∉ c.storageOverlay.entries.map Prod.fst → st k = t.storageAt c.baseRoot k) ∧
    (∀ a c, (a, c) ∈ cache.entries → c.isDirty → c.isAlive →
      (commit rootOf cache t).2.storageAt (storageRoot rootOf t.storageAt c) =
        c.storageOverlay.entries.foldl writeSlot (t.storageAt c.baseRoot)) ∧
    (∀ a c, (a, c) ∈ cache.entries → c.isDirty → c.isAlive → c.hasNewCode →
      (commit rootOf cache t).2.code c.codeHash = some c.code) ∧
    (∀ cache' : AccountMap, cache'.entries.Perm cache.entries → commit rootOf cache' t = commit rootOf cache t) ∧
    (∀ (c : CachedAccount) (o : StorageOverlay), o.entries.Perm c.storageOverlay.entries →
      storageRoot rootOf t.storageAt { c with storageOverlay := o } = storageRoot rootOf t.storageAt c) := by
  have hagree : CodesAgree cache.entries := fun e he e' he' hw hw' hh => by
    simp only [CachedAccount.writesCode, Bool.and_eq_true] at hw hw'
    exact hsha3 e he e' he' hw.2 hw'.2 ((hcode e he hw.2).symm.trans (hh.trans (hcode e' he' hw'.2)))
  have hb : BasesAgree ((∅ : Finset Address), t).2.storageAt t.storageAt cache.entries :=
    fun _ _ _ _ => rfl
  refine ⟨?_, fun a ha => ?_, fun a c hc hd => ?_, fun c hc => by simp [storageRoot, hc],
    fun c hc => ⟨overlaidStorage t.storageAt c, by simp [storageRoot, hc], fun k v hkv => ?_,
      fun k hk => ?_⟩, fun a c hc hd hal => storageAt_commit rootOf cache t hroots hc hd hal,
    fun a c hc hd hal hn => ?_, fun _ hp => commit_perm rootOf cache t hagree hroots hp,
    fun c _ hp => storageRoot_perm rootOf t.storageAt c hp⟩
  · rw [commit, foldl_commitStep_fst, Finset.empty_union]
  · by_cases hmem : a ∈ cache.entries.map Prod.fst
    · obtain ⟨⟨a', c⟩, hc, rfl⟩ := List.mem_map.mp hmem
      rw [commit, foldl_commitStep_accounts_of_mem rootOf hroots (List.Subset.refl _) cache.nodup hc _ hb,
        committedEntry, if_neg (by simp [ha c hc])]
    · exact foldl_commitStep_accounts_of_not_mem rootOf hmem _
  · rw [commit, foldl_commitStep_accounts_of_mem rootOf hroots (List.Subset.refl _) cache.nodup hc _ hb,
      committedEntry, if_pos hd]
    rfl
  · rw [overlaidStorage, foldl_writeSlot_of_mem c.storageOverlay.nodup hkv]
    exact ⟨slotValue_getD v, slotValue_ne_some_zero v⟩
  · exact foldl_writeSlot_of_not_mem hk _
  · have := foldl_commitStep_codeEntry_of_writes rootOf hagree hc (by simp [CachedAccount.writesCode, *])
      (∅, t)
    exact congrArg Prod.fst this

/-- A cache of two dirty entries: account 1 alive, with new code `0x60` under
hash 1 and an overlay that sets slot 7 to 5 and clears slot 8; account 2
dead. -/
def sampleCache : AccountMap :=
  ⟨[(1, ⟨1, 100, 0, ⟨[(7, 5), (8, 0)], by decide⟩, 1, [0x60], true, true, true⟩),
    (2, ⟨0, 0, 0, ⟨[], by decide⟩, 0, [], true, false, false⟩)], by decide⟩

/-- An empty trie and database. -/
def emptyTrieDB : TrieDB := ⟨fun _ => none, fun _ _ => none, fun _ => none, fun _ => none⟩

/-- Only the alive sample account writes a storage trie, under root 5. -/
theorem sampleCache_rootsAgree :
    RootsAgree (fun st => (st 7).getD 0) emptyTrieDB.storageAt sampleCache.entries := by
  intro e he st hw
  simp only [sampleCache, List.mem_cons, List.not_mem_nil, or_false] at he
  rcases he with rfl | rfl
  · refine ⟨fun e' he' st' hw' _ => ?_, fun e' he' hd ha hr => ?_⟩
    · simp only [sampleCache, List.mem_cons, List.not_mem_nil, or_false] at he'
      rcases he' with rfl | rfl
      · exact Option.some.inj (hw.symm.trans hw')
      · cases hw'
    · simp only [sampleCache, List.mem_cons, List.not_mem_nil, or_false] at he'
      rcases he' with rfl | rfl
      · cases hw
        exact absurd hr (by decide)
      · cases ha
  · cases hw

/-- Committing the sample cache, with code hashed to its length and a storage
trie rooted at its slot 7: the new code and the written storage are stored,
the dead account is removed, and the alive one's record holds the storage root. -/
theorem sampleCache_commit :
    (commit (fun st => (st 7).getD 0) sampleCache emptyTrieDB).2.code 1 = some [0x60] ∧
      (commit (fun st => (st 7).getD 0) sampleCache emptyTrieDB).2.storageAt 5 7 = some 5 ∧
      (commit (fun st => (st 7).getD 0) sampleCache emptyTrieDB).2.accounts 2 = none ∧
      (commit (fun st => (st 7).getD 0) sampleCache emptyTrieDB).2.accounts 1 = some ⟨1, 100, 5, 1⟩ :=
  have h := commit_meaning (fun st => (st 7).getD 0) sampleCache emptyTrieDB
    (fun b => BitVec.ofNat 256 b.length) (by decide) (by decide) sampleCache_rootsAgree
  ⟨h.2.2.2.2.2.2.1 1 _ (List.mem_cons_self _ _) rfl rfl rfl,
    (congrFun (h.2.2.2.2.2.1 1 _ (List.mem_cons_self _ _) rfl rfl) 7).trans rfl,
    (h.2.2.1 2 _ (List.mem_cons_of_mem _ (List.mem_cons_self _ _)) rfl).trans rfl,
    (h.2.2.1 1 _ (List.mem_cons_self _ _) rfl).trans rfl⟩

end Commit

end EthExecutive
