import EdonPlatform.World.Store

/- Delivery over the world outbox (edon/outbox/store.py, `TransactionalOutbox`).

   Correspondence (Python ↔ Lean):
     `_time`        ↔ `outboxTime`
     `_audit`       ↔ `audit`
     `claim`        ↔ `claim` (`expire` and `lease` are the bodies of its two loops)
     `acknowledge`  ↔ `acknowledge`
     `fail`         ↔ `fail`

   Each call is one transaction on the tables of the world database (`BEGIN IMMEDIATE`),
   so an interleaving of calls is a sequence of them. Times are compared as the texts
   `isoformat` gives. The message a call returns is its row. -/
namespace Edon.Outbox
open Json World

def outboxError (message : String) : PyError := ⟨.outboxError, message⟩

section
variable (py : Python)

/-- `_time`; `now` is what the clock reads. -/
def outboxTime (now : Int) (value : TimeArg) : Except PyError Int :=
  let aware : ParsedTime → Except PyError Int
    | .invalid => .error (outboxError "timestamp must be ISO-8601")
    | .naive => .error (outboxError "timestamp must include a timezone")
    | .instant t => astimezone t
  match value with
  | .absent => .ok now
  | .datetime t => aware t
  | .text s => aware (py.fromisoformat (replaceZ s))

def audit (messageId : String) (action : AuditAction) (workerId : String) (detail : Json)
    (createdAt : String) (db : WorldDb) : WorldDb :=
  { db with outboxDeliveryAudit :=
      db.outboxDeliveryAudit ++ [⟨messageId, action, workerId, detail.canon, createdAt⟩] }

/-- `UPDATE world_outbox ... WHERE message_id = ?`. -/
def update (messageId : String) (f : OutboxRow → OutboxRow) (hf : ∀ r, (f r).key = r.key)
    (db : WorldDb) : WorldDb :=
  { db with worldOutbox := db.worldOutbox.modify messageId f hf }

/-- `str(row["lease_owner"] or "UNKNOWN")`. -/
def formerOwner (row : OutboxRow) : String :=
  match row.leaseOwner with
  | some owner => if owner = "" then "UNKNOWN" else owner
  | none => "UNKNOWN"

/-- The body of the loop over the expired leases. -/
def expire (currentText : String) (db : WorldDb) (row : OutboxRow) : WorldDb :=
  audit row.messageId .leaseExpired (formerOwner row) (.obj []) currentText
    (update row.messageId
      (fun r => { r with status := .pending, leaseOwner := none, leaseExpiresAt := none })
      (fun _ => rfl) db)

/-- The body of the loop over the messages to claim. -/
def lease (workerId leaseExpiry currentText : String) (db : WorldDb) (row : OutboxRow) : WorldDb :=
  audit row.messageId .claimed workerId (.obj [("lease_expires_at", .str leaseExpiry)]) currentText
    (update row.messageId
      (fun r => if r.status = .pending then
          { r with
            status := .leased
            leaseOwner := some workerId
            leaseExpiresAt := some leaseExpiry
            attemptCount := r.attemptCount + 1 }
        else r)
      (fun r => by split <;> rfl) db)

/-- The loop over the messages to claim, with the messages it returns. -/
def leaseAll (workerId leaseExpiry currentText : String) :
    List OutboxRow → WorldDb → List OutboxRow × WorldDb
  | [], db => ([], db)
  | row :: rest, db =>
    let db := lease workerId leaseExpiry currentText db row
    let (claimed, db') := leaseAll workerId leaseExpiry currentText rest db
    ((db.worldOutbox.get row.messageId).toList ++ claimed, db')

/-- `status = 'LEASED' AND lease_expires_at < ?`. -/
def isExpired (currentText : String) (r : OutboxRow) : Bool :=
  r.status = .leased && match r.leaseExpiresAt with
    | some expires => expires < currentText
    | none => false

/-- `ORDER BY created_at, message_id`. -/
def deliveryOrder (r s : OutboxRow) : Bool :=
  r.createdAt < s.createdAt || (r.createdAt = s.createdAt && r.messageId ≤ s.messageId)

def claimTx (workerId leaseExpiry currentText : String) (limit : Nat) (db : WorldDb) :
    List OutboxRow × WorldDb :=
  let expired := db.worldOutbox.rows.filter (isExpired currentText)
  let db := expired.foldl (expire currentText) db
  let rows := ((db.worldOutbox.rows.filter
    (fun r => r.status = .pending && r.availableAt ≤ currentText)).mergeSort deliveryOrder).take limit
  leaseAll workerId leaseExpiry currentText rows db

def claim (now : Int) (workerId : String) (limit leaseSeconds : Int) (time : TimeArg)
    (db : WorldDb) : Except PyError (List OutboxRow) × WorldDb :=
  let checks : Except PyError (String × Int × Int) := do
    let workerId ← bounded
      (outboxError "worker_id must contain between 1 and 200 characters") 200 workerId
    if limit < 1 ∨ 1000 < limit then .error (outboxError "claim limit must be between 1 and 1000")
    if leaseSeconds < 1 ∨ 3600 < leaseSeconds then
      .error (outboxError "lease_seconds must be between 1 and 3600")
    let current ← outboxTime py now time
    let expiry ← addSeconds current leaseSeconds
    return (workerId, current, expiry)
  match checks with
  | .error e => (.error e, db)
  | .ok (workerId, current, expiry) =>
    let (claimed, db) :=
      claimTx workerId (py.isoformat expiry) (py.isoformat current) limit.toNat db
    (.ok claimed, db)

def acknowledgeTx (messageId workerId current : String) (db : WorldDb) :
    Except PyError (OutboxRow × WorldDb) :=
  match db.worldOutbox.get messageId with
  | none => .error (outboxError "outbox message not found")
  | some row =>
    if row.status = .delivered then .ok (row, db)
    else if row.status ≠ .leased ∨ row.leaseOwner ≠ some workerId then
      .error (outboxError "outbox message is not leased by this worker")
    else
      let db := audit messageId .delivered workerId (.obj []) current
        (update messageId
          (fun r => { r with
            status := .delivered
            deliveredAt := some current
            leaseOwner := none
            leaseExpiresAt := none
            lastError := none })
          (fun _ => rfl) db)
      .ok ((db.worldOutbox.get messageId).getD row, db)

/-- A transaction of one message. -/
def deliver (body : WorldDb → Except PyError (OutboxRow × WorldDb)) (db : WorldDb) :
    Except PyError OutboxRow × WorldDb :=
  match body db with
  | .error e => (.error e, db)
  | .ok (row, db') => (.ok row, db')

def acknowledge (now : Int) (messageId workerId : String) (time : TimeArg) (db : WorldDb) :
    Except PyError OutboxRow × WorldDb :=
  match outboxTime py now time with
  | .error e => (.error e, db)
  | .ok current => deliver (acknowledgeTx messageId workerId (py.isoformat current)) db

def failTx (messageId workerId error : String) (retryAfterSeconds maxAttempts current : Int)
    (db : WorldDb) : Except PyError (OutboxRow × WorldDb) :=
  match db.worldOutbox.get messageId with
  | none => .error (outboxError "outbox message is not leased by this worker")
  | some row =>
    if row.status ≠ .leased ∨ row.leaseOwner ≠ some workerId then
      .error (outboxError "outbox message is not leased by this worker")
    else do
      let dead : Bool := maxAttempts ≤ row.attemptCount
      let available ← addSeconds current retryAfterSeconds
      let db := audit messageId (if dead then .dead else .retryScheduled) workerId
        (.obj [("error", .str error), ("available_at", .str (py.isoformat available))])
        (py.isoformat current)
        (update messageId
          (fun r => { r with
            status := if dead then .dead else .pending
            availableAt := py.isoformat available
            leaseOwner := none
            leaseExpiresAt := none
            lastError := some error })
          (fun _ => rfl) db)
      .ok ((db.worldOutbox.get messageId).getD row, db)

/-- `str(error).strip()[:2000]`. -/
def errorText (error : String) : String := String.ofList ((strip error).toList.take 2000)

def fail (now : Int) (messageId workerId error : String) (retryAfterSeconds maxAttempts : Int)
    (time : TimeArg) (db : WorldDb) : Except PyError OutboxRow × WorldDb :=
  let checks : Except PyError (Int × String) := do
    let current ← outboxTime py now time
    if errorText error = "" then .error (outboxError "delivery error must be explicit")
    return (current, errorText error)
  match checks with
  | .error e => (.error e, db)
  | .ok (current, error) =>
    deliver (failTx py messageId workerId error retryAfterSeconds maxAttempts current) db

end
end Edon.Outbox
