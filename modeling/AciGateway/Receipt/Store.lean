import AciGateway.Receipt.Builder
import AciGateway.Lib.FinMap

/-! The receipt store: receipts until their deadline, found by their own id or by the id of
the chat they belong to. -/
namespace AciGateway.Receipt

structure ReceiptOwner where
  authTokenSha256 : String
  deriving DecidableEq

structure StoredReceipt where
  receipt : SignedReceipt
  owner : Option ReceiptOwner
  expiresAt : U64
  deriving DecidableEq

/-- `byExpiry` lists the ids under each deadline, earliest deadline first. -/
structure ReceiptStore where
  byReceipt : FinMap String StoredReceipt
  byChat : FinMap String String
  byExpiry : List (U64 × List String)

def addExpiryHint (deadline : U64) (id : String) :
    List (U64 × List String) → List (U64 × List String)
  | [] => [(deadline, [id])]
  | (d, ids) :: rest =>
    if deadline < d then (deadline, [id]) :: (d, ids) :: rest
    else if deadline = d then (d, ids.insert id) :: rest
    else (d, ids) :: addExpiryHint deadline id rest

/-- A deadline without ids is dropped. -/
def dropExpiryHint (deadline : U64) (id : String) :
    List (U64 × List String) → List (U64 × List String)
  | [] => []
  | (d, ids) :: rest =>
    if d = deadline then
      match ids.erase id with
      | [] => rest
      | ids => (d, ids) :: rest
    else (d, ids) :: dropExpiryHint deadline id rest

namespace ReceiptStore

def empty : ReceiptStore := ⟨∅, ∅, []⟩

/-- The chat id no longer leads to the receipt, unless it leads to another one by now. -/
def dropChatMapping (s : ReceiptStore) (entry : StoredReceipt) (receiptId : String) :
    ReceiptStore :=
  match entry.receipt.chatId with
  | some chatId =>
    if s.byChat.lookup chatId = some receiptId then
      { s with byChat := s.byChat.erase chatId }
    else s
  | none => s

/-- Take the receipt out of the table and drop its chat mapping. -/
def forget (s : ReceiptStore) (receiptId : String) : ReceiptStore :=
  match s.byReceipt.lookup receiptId with
  | some entry =>
    { s with byReceipt := s.byReceipt.erase receiptId }.dropChatMapping entry receiptId
  | none => s

def remove (s : ReceiptStore) (receiptId : String) : ReceiptStore :=
  match s.byReceipt.lookup receiptId with
  | some entry =>
    let s := s.forget receiptId
    { s with byExpiry := dropExpiryHint entry.expiresAt receiptId s.byExpiry }
  | none => s

def insert (s : ReceiptStore) (receipt : SignedReceipt) (owner : Option ReceiptOwner)
    (expiresAt : U64) : ReceiptStore :=
  let s := s.remove receipt.receiptId
  { byReceipt := s.byReceipt.insert receipt.receiptId ⟨receipt, owner, expiresAt⟩
    byChat := match receipt.chatId with
      | some chatId => s.byChat.insert chatId receipt.receiptId
      | none => s.byChat
    byExpiry := addExpiryHint expiresAt receipt.receiptId s.byExpiry }

/-- The loop over the deadlines, earliest first, up to the first that is still ahead. -/
def evictBuckets (now : U64) : List (U64 × List String) → ReceiptStore → ReceiptStore
  | [], s => { s with byExpiry := [] }
  | (d, ids) :: rest, s =>
    if now < d then { s with byExpiry := (d, ids) :: rest }
    else evictBuckets now rest (ids.foldl forget s)

def evictExpired (s : ReceiptStore) (now : U64) : ReceiptStore := evictBuckets now s.byExpiry s

def put (s : ReceiptStore) (receipt : SignedReceipt) (owner : Option ReceiptOwner)
    (now expiresAt : U64) : ReceiptStore :=
  (s.evictExpired now).insert receipt owner expiresAt

/-- What is stored under the id, unless its deadline has come; then it is removed. -/
def live (s : ReceiptStore) (receiptId : String) (now : U64) :
    Option StoredReceipt × ReceiptStore :=
  match s.byReceipt.lookup receiptId with
  | none => (none, s)
  | some entry => if entry.expiresAt ≤ now then (none, s.remove receiptId) else (some entry, s)

def getByReceiptId (s : ReceiptStore) (receiptId : String) (now : U64) :
    Option SignedReceipt × ReceiptStore :=
  ((s.live receiptId now).1.map (·.receipt), (s.live receiptId now).2)

def getByChatId (s : ReceiptStore) (chatId : String) (now : U64) :
    Option SignedReceipt × ReceiptStore :=
  match s.byChat.lookup chatId with
  | none => (none, s)
  | some receiptId => s.getByReceiptId receiptId now

def ownerOf (s : ReceiptStore) (receiptId : String) (now : U64) :
    Option ReceiptOwner × ReceiptStore :=
  ((s.live receiptId now).1.bind (·.owner), (s.live receiptId now).2)

variable {s : ReceiptStore} {id id' : String} {now expiresAt : U64} {entry : StoredReceipt}
  {receipt : SignedReceipt} {owner : Option ReceiptOwner}

@[simp] theorem byReceipt_dropChatMapping (s : ReceiptStore) (entry : StoredReceipt)
    (id : String) : (s.dropChatMapping entry id).byReceipt = s.byReceipt := by
  unfold dropChatMapping
  split
  · split <;> rfl
  · rfl

theorem lookup_forget (s : ReceiptStore) (id id' : String) :
    (s.forget id).byReceipt.lookup id' = if id' = id then none else s.byReceipt.lookup id' := by
  unfold forget
  cases h : s.byReceipt.lookup id with
  | none =>
    by_cases hid : id' = id
    · subst hid
      simp [h]
    · simp [hid]
  | some entry => simp only [byReceipt_dropChatMapping, FinMap.lookup_erase_eq]

theorem lookup_remove (s : ReceiptStore) (id id' : String) :
    (s.remove id).byReceipt.lookup id' = if id' = id then none else s.byReceipt.lookup id' := by
  rw [← lookup_forget]
  unfold remove
  cases h : s.byReceipt.lookup id with
  | none => rw [forget, h]
  | some entry => rfl

theorem lookup_insert (s : ReceiptStore) (receipt : SignedReceipt) (owner : Option ReceiptOwner)
    (expiresAt : U64) (id : String) :
    (s.insert receipt owner expiresAt).byReceipt.lookup id =
      if id = receipt.receiptId then some ⟨receipt, owner, expiresAt⟩
      else s.byReceipt.lookup id := by
  simp only [insert, FinMap.lookup_insert_eq, lookup_remove]
  by_cases h : id = receipt.receiptId <;> simp [h]

theorem lookup_of_forgetAll {ids : List String}
    (h : (ids.foldl forget s).byReceipt.lookup id = some entry) :
    s.byReceipt.lookup id = some entry := by
  induction ids generalizing s with
  | nil => exact h
  | cons x ids ih =>
    have hx := ih h
    rw [lookup_forget] at hx
    split at hx
    · cases hx
    · exact hx

/-- Eviction adds no receipt. -/
theorem lookup_of_evictExpired (h : (s.evictExpired now).byReceipt.lookup id = some entry) :
    s.byReceipt.lookup id = some entry := by
  unfold evictExpired at h
  generalize s.byExpiry = buckets at h
  induction buckets generalizing s with
  | nil => exact h
  | cons b buckets ih =>
    unfold evictBuckets at h
    split at h
    · exact h
    · exact lookup_of_forgetAll (ih h)

theorem lookup_of_put (h : (s.put receipt owner now expiresAt).byReceipt.lookup id = some entry) :
    entry = ⟨receipt, owner, expiresAt⟩ ∨ s.byReceipt.lookup id = some entry := by
  unfold put at h
  rw [lookup_insert] at h
  split at h
  · exact .inl (Option.some.inj h).symm
  · exact .inr (lookup_of_evictExpired h)

/-- A receipt that is found is stored under a deadline still ahead. -/
theorem live_eq_some (h : (s.live id now).1 = some entry) :
    s.byReceipt.lookup id = some entry ∧ now < entry.expiresAt := by
  unfold live at h
  cases hl : s.byReceipt.lookup id with
  | none => rw [hl] at h; cases h
  | some e =>
    rw [hl] at h
    dsimp only at h
    split at h
    · cases h
    · next hlt =>
      cases h
      exact ⟨rfl, not_le.mp hlt⟩

theorem lookup_of_live (h : (s.live id now).2.byReceipt.lookup id' = some entry) :
    s.byReceipt.lookup id' = some entry := by
  unfold live at h
  split at h
  · exact h
  · split at h
    · rw [lookup_remove] at h
      split at h
      · cases h
      · exact h
    · exact h

theorem found_of_getByReceiptId (h : (s.getByReceiptId id now).1 = some receipt) :
    ∃ id' entry, s.byReceipt.lookup id' = some entry ∧ entry.receipt = receipt ∧
      now < entry.expiresAt := by
  obtain ⟨entry, he, hr⟩ := Option.map_eq_some_iff.mp h
  obtain ⟨hl, hlt⟩ := live_eq_some he
  exact ⟨id, entry, hl, hr, hlt⟩

theorem found_of_getByChatId (h : (s.getByChatId id now).1 = some receipt) :
    ∃ id' entry, s.byReceipt.lookup id' = some entry ∧ entry.receipt = receipt ∧
      now < entry.expiresAt := by
  unfold getByChatId at h
  split at h
  · cases h
  · exact found_of_getByReceiptId h

theorem lookup_of_getByChatId (h : (s.getByChatId id now).2.byReceipt.lookup id' = some entry) :
    s.byReceipt.lookup id' = some entry := by
  unfold getByChatId at h
  split at h
  · exact h
  · exact lookup_of_live h

/-! The tables after any run of calls. -/

inductive Operation where
  | put (receipt : SignedReceipt) (owner : Option ReceiptOwner) (now expiresAt : U64)
  | getByReceiptId (id : String) (now : U64)
  | getByChatId (id : String) (now : U64)
  | ownerOf (id : String) (now : U64)

def step (s : ReceiptStore) : Operation → ReceiptStore
  | .put receipt owner now expiresAt => s.put receipt owner now expiresAt
  | .getByReceiptId id now => (s.getByReceiptId id now).2
  | .getByChatId id now => (s.getByChatId id now).2
  | .ownerOf id now => (s.ownerOf id now).2

/-- What is stored was put under its own id, and a chat leads to a stored receipt of it. -/
structure Linked (ops : List Operation) (s : ReceiptStore) : Prop where
  own : ∀ id, ∀ e ∈ s.byReceipt.lookup id, e.receipt.receiptId = id ∧
    ∃ now, .put e.receipt e.owner now e.expiresAt ∈ ops
  chat : ∀ c, ∀ id ∈ s.byChat.lookup c,
    ∃ e ∈ s.byReceipt.lookup id, e.receipt.chatId = some c

variable {ops : List Operation} {c : String}

/-- A chat that led to the receipt was the receipt's own, so its mapping goes too. -/
theorem byChat_of_forget (h : Linked ops s) (hc : (s.forget id).byChat.lookup c = some id') :
    s.byChat.lookup c = some id' ∧ id' ≠ id := by
  have hown := h.chat c id'
  unfold forget dropChatMapping at hc
  grind [FinMap.lookup_erase_eq]

theorem Linked.forget (h : Linked ops s) (id : String) : Linked ops (s.forget id) where
  own id' e he := by
    rw [lookup_forget] at he
    split at he
    · cases he
    · exact h.own id' e he
  chat c id' hc := by
    obtain ⟨hold, hne⟩ := byChat_of_forget h hc
    rw [lookup_forget, if_neg hne]
    exact h.chat c id' hold

theorem Linked.remove (h : Linked ops s) (id : String) : Linked ops (s.remove id) := by
  unfold ReceiptStore.remove
  split
  · exact ⟨(h.forget id).own, (h.forget id).chat⟩
  · exact h

theorem Linked.evictExpired (h : Linked ops s) (now : U64) : Linked ops (s.evictExpired now) := by
  unfold ReceiptStore.evictExpired
  generalize s.byExpiry = buckets
  induction buckets generalizing s with
  | nil => exact ⟨h.own, h.chat⟩
  | cons b buckets ih =>
    unfold evictBuckets
    split
    · exact ⟨h.own, h.chat⟩
    · exact ih (List.foldlRecOn b.2 _ h fun _ h id _ => h.forget id)

theorem Linked.insert (h : Linked ops s) (hp : .put receipt owner now expiresAt ∈ ops) :
    Linked ops (s.insert receipt owner expiresAt) where
  own id e he := by
    rw [lookup_insert] at he
    split at he
    · next hid =>
      cases he
      exact ⟨hid.symm, now, hp⟩
    · exact h.own id e he
  chat c id hc := by
    have hold := (h.remove receipt.receiptId).chat c id
    rw [lookup_remove] at hold
    simp only [ReceiptStore.insert] at hc
    rw [lookup_insert]
    split
    · exact ⟨_, rfl, by grind [FinMap.lookup_insert_eq]⟩
    · grind [FinMap.lookup_insert_eq]

theorem Linked.live (h : Linked ops s) (id : String) (now : U64) :
    Linked ops (s.live id now).2 := by
  unfold ReceiptStore.live
  split
  · exact h
  · split
    · exact h.remove id
    · exact h

/-- The order of the calls and the clock each reads are free. -/
theorem linked_run (ops : List Operation) : Linked ops (ops.foldl step empty) := by
  refine List.foldlRecOn ops step ⟨nofun, nofun⟩ fun s h op hop => ?_
  cases op with
  | put receipt owner now expiresAt => exact (h.evictExpired now).insert hop
  | getByReceiptId id now | ownerOf id now => exact h.live id now
  | getByChatId id now =>
    unfold step getByChatId
    dsimp only
    split
    · exact h
    · exact h.live _ now

end ReceiptStore

end AciGateway.Receipt
