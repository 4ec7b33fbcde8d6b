import AgentWallet.AuditLog.Reader

/-!
# Pending timelock operations

`reader.rs`: `find_pending_timelock_operations` gathers the operations of one timelock from all
files of the log, the newest file first and each file from its first row on.  A scheduled row enters
its operation in a map unless it is already there, a cancelled or executed row takes it out and is
remembered in a set, and the answer is the map without the set.
-/

namespace AgentWallet.AuditLog.Timelocks

open Base Timestamps Entry Files List Base.Checks
open Reader (ReadError FileContext Cursor Scan Query chainQuery checkRow scanLine scanFile scanFiles
  fileContext collectFilesNewestFirst findLatest filterMap_readLine_cons scanFiles_of_holdsChain)
open PlainLog (codedLog bareEntry)

/-! ## Gathering the rows -/

/-- The event kinds the scan looks at, with the fields it reads.  A row names its timelock by the
first and last five characters of the address. -/
inductive TimelockEvent where
  | saTimelockScheduled (operationIdFullHex timelockContractRedacted auditRequestId : String)
  | saTimelockCancelled (operationIdFullHex timelockContractRedacted : String)
  | saTimelockExecuted (operationIdFullHex timelockContractRedacted : String)
  | other (kind : String)
deriving Countable

/-- What the scan has gathered: a request and a timelock for each operation scheduled, and the
operations cancelled or executed. -/
structure Gathered where
  scheduledOps : AList (fun _ : String => String × String)
  cancelledOrExecuted : Finset String

/-- `HashMap::entry` with `or_insert_with`: an operation that is there stays as it is. -/
def Gathered.schedule (g : Gathered) (op : String) (row : String × String) : Gathered :=
  if op ∈ g.scheduledOps then g else { g with scheduledOps := g.scheduledOps.insert op row }

def Gathered.close (g : Gathered) (op : String) : Gathered :=
  ⟨g.scheduledOps.erase op, insert op g.cancelledOrExecuted⟩

def gather (timelock : String) (g : Gathered) : TimelockEvent → Gathered
  | .saTimelockScheduled op name request =>
    if name = timelock then g.schedule op (request, name) else g
  | .saTimelockCancelled op name => if name = timelock then g.close op else g
  | .saTimelockExecuted op name => if name = timelock then g.close op else g
  | .other _ => g

def eventOf : EventKind TimelockEvent → Option TimelockEvent
  | .auditRotationHandoff _ => none
  | .other event => some event

def gatherRow (timelock : String) (g : Gathered) (e : AuditEntry TimelockEvent) : Gathered :=
  ((eventOf e.eventKind).map (gather timelock g)).getD g

/-! ## Scanning the log -/

structure TimelockScan where
  cursor : Cursor
  gathered : Gathered

section

variable {D : Type} [DecidableEq D] (env : LogEnv TimelockEvent D) (dir : Directory)

def scanTimelockLine (timelock : String) (ctx : FileContext) (s : TimelockScan) (raw : Text) :
    Except ReadError TimelockScan :=
  let line := s.cursor.lineIndex + 1
  match Utf8.decode (stripLineTerminator raw) with
  | none => .error .io
  | some text =>
    if Utf8.isBlank text then .ok { s with cursor := { s.cursor with lineIndex := line } }
    else
      match readLine env raw with
      | none => .error (.parseError line .notAnEntry)
      | some e => do
        let hash ← checkRow env dir ctx s.cursor line e
        .ok ⟨⟨false, some hash, line⟩, gatherRow timelock s.gathered e⟩

def scanFileForTimelockOperations (timelock : String) (ctx : FileContext) (g : Gathered) :
    Except ReadError Gathered := do
  let content ← Reader.openRegularFile (dir.files.lookup ctx.name)
  let s ← (Lines.rawLines 10 content).foldlM (scanTimelockLine env dir timelock ctx)
    ⟨⟨true, none, 0⟩, g⟩
  .ok s.gathered

/-- The loop over the files: unlike the searches for one row it reads them all. -/
def scanFilesForTimelockOperations (timelock : String) (hmacKey : Option Text)
    (hasRotatedSiblings : Bool) : List Text → Gathered → Except ReadError Gathered
  | [], g => .ok g
  | name :: names, g =>
    if fileExists (dir.files.lookup name) then do
      let g ← scanFileForTimelockOperations env dir timelock
        (fileContext env hmacKey hasRotatedSiblings name) g
      scanFilesForTimelockOperations timelock hmacKey hasRotatedSiblings names g
    else if name = env.stem ∧ hasRotatedSiblings = false then
      scanFilesForTimelockOperations timelock hmacKey hasRotatedSiblings names g
    else .error (.rotationGap name)

/-- Pending = scheduled - (cancelled ∪ executed). -/
def Gathered.pending (g : Gathered) : List (String × String × String) :=
  (g.scheduledOps.entries.filter fun entry => entry.1 ∉ g.cancelledOrExecuted).map
    fun entry => (entry.1, entry.2.1, entry.2.2)

def findPendingTimelockOperations (hmacKey : Option Text) (timelock : String) :
    Except ReadError (List (String × String × String)) := do
  let g ← scanFilesForTimelockOperations env dir timelock hmacKey
    (decide ((collectFilesNewestFirst env dir).length > 1)) (collectFilesNewestFirst env dir) ⟨∅, ∅⟩
  .ok g.pending

/-! ## The rows of a log -/

def eventsOf (entries : List (AuditEntry TimelockEvent)) : List TimelockEvent :=
  entries.filterMap fun e => eventOf e.eventKind

/-- The events of the log, oldest first: what a rotation keeps. -/
def loggedEvents : List TimelockEvent := eventsOf (logEntries env dir)

/-- The events of the log as the scan meets them: the files newest first, the rows of a file oldest
first. -/
def scannedEvents : List TimelockEvent :=
  eventsOf ((collectFilesNewestFirst env dir).flatMap (fileEntries env dir))

/-- The log passes the checks that every reader makes of it. -/
def Readable (hmacKey : Option Text) : Prop := findLatest env dir chainQuery hmacKey = .ok none

end

/-- The request of a row that schedules the operation on the timelock. -/
def scheduledRequest (timelock op : String) : TimelockEvent → Option String
  | .saTimelockScheduled op' name request =>
    if op' = op ∧ name = timelock then some request else none
  | _ => none

/-- The row ends the operation on the timelock. -/
def Closes (timelock op : String) (event : TimelockEvent) : Prop :=
  event = .saTimelockCancelled op timelock ∨ event = .saTimelockExecuted op timelock

/-! ## What the rows read so far have left -/

structure Read (timelock : String) (events : List TimelockEvent) (g : Gathered) : Prop where
  closed : ∀ op, op ∈ g.cancelledOrExecuted ↔ ∃ event ∈ events, Closes timelock op event
  scheduled : ∀ op, (∀ event ∈ events, ¬ Closes timelock op event) →
    g.scheduledOps.lookup op =
      (events.findSome? (scheduledRequest timelock op)).map fun request => (request, timelock)

section

variable {timelock op : String} {events : List TimelockEvent} {g : Gathered}

theorem Read.nil (timelock : String) : Read timelock [] ⟨∅, ∅⟩ where
  closed op := by simp
  scheduled op _ := AList.lookup_empty op

variable {event : TimelockEvent}

section

variable (h : Read timelock events g)
include h

theorem Read.skip (hclose : ∀ op, ¬ Closes timelock op event)
    (hrequest : ∀ op, scheduledRequest timelock op event = none) :
    Read timelock (events ++ [event]) g where
  closed op := by
    rw [h.closed]
    simp [or_and_right, exists_or, hclose]
  scheduled op hopen := by
    rw [h.scheduled op fun event hevent => hopen event (mem_append_left _ hevent)]
    simp [hrequest]

theorem Read.schedule (op request : String) :
    Read timelock (events ++ [.saTimelockScheduled op timelock request])
      (g.schedule op (request, timelock)) where
  closed op' := by
    have hsame : (g.schedule op (request, timelock)).cancelledOrExecuted =
        g.cancelledOrExecuted := by
      unfold Gathered.schedule
      split_ifs <;> rfl
    rw [hsame, h.closed]
    simp [or_and_right, exists_or, Closes]
  scheduled op' hopen := by
    have hbefore :=
      h.scheduled op' fun event hevent => hopen event (mem_append_left _ hevent)
    rw [List.findSome?_append]
    unfold Gathered.schedule
    by_cases hop : op = op'
    · subst hop
      split_ifs with hmem
      · -- the operation is there: an earlier row stands
        obtain ⟨row, hrow⟩ := Option.isSome_iff_exists.1 (AList.lookup_isSome.2 hmem)
        rw [hrow] at hbefore ⊢
        obtain ⟨request', hrequest', -⟩ := Option.map_eq_some_iff.1 hbefore.symm
        rw [hbefore, hrequest']
        rfl
      · rw [AList.lookup_eq_none.2 hmem] at hbefore
        rw [Option.map_eq_none_iff.1 hbefore.symm]
        simp [scheduledRequest]
    · have hother : scheduledRequest timelock op' (.saTimelockScheduled op timelock request) =
          none := by
        simp [scheduledRequest, hop]
      have hlookup : (if op ∈ g.scheduledOps then g
          else { g with scheduledOps := g.scheduledOps.insert op (request, timelock) }
          ).scheduledOps.lookup op' = g.scheduledOps.lookup op' := by
        split_ifs
        · rfl
        · exact AList.lookup_insert_ne (Ne.symm hop)
      rw [hlookup, hbefore]
      simp [hother]

theorem Read.close (op : String) (hclose : ∀ op', Closes timelock op' event ↔ op' = op)
    (hrequest : ∀ op', scheduledRequest timelock op' event = none) :
    Read timelock (events ++ [event]) (g.close op) where
  closed op' := by
    unfold Gathered.close
    rw [Finset.mem_insert, h.closed]
    simp [or_and_right, exists_or, hclose, or_comm]
  scheduled op' hopen := by
    have hne : op' ≠ op := fun heq => hopen event (by simp) ((hclose op').2 heq)
    unfold Gathered.close
    rw [AList.lookup_erase_ne hne,
      h.scheduled op' fun event hevent => hopen event (mem_append_left _ hevent)]
    simp [hrequest]

theorem Read.gather (event : TimelockEvent) :
    Read timelock (events ++ [event]) (gather timelock g event) := by
  cases event with
  | saTimelockScheduled op name request =>
    simp only [Timelocks.gather]
    split_ifs with hname
    · subst hname
      exact h.schedule op request
    · exact h.skip (fun op' => by simp [Closes]) fun op' => by simp [scheduledRequest, hname]
  | saTimelockCancelled op name | saTimelockExecuted op name =>
    simp only [Timelocks.gather]
    split_ifs with hname
    · subst hname
      exact h.close op (fun op' => by simp [Closes, eq_comm]) fun op' => rfl
    · exact h.skip (fun op' => by simp [Closes, hname]) fun op' => rfl
  | other kind => exact h.skip (fun op' => by simp [Closes]) fun op' => rfl

theorem Read.foldl (later : List TimelockEvent) :
    Read timelock (events ++ later) (later.foldl (Timelocks.gather timelock) g) := by
  induction later generalizing events g with
  | nil => simpa using h
  | cons event later ih =>
    have hrest := ih (h.gather event)
    rwa [append_assoc] at hrest

end

variable {request name : String}

theorem mem_pending : (op, request, name) ∈ g.pending ↔
      g.scheduledOps.lookup op = some (request, name) ∧ op ∉ g.cancelledOrExecuted := by
  unfold Gathered.pending
  rw [mem_map]
  constructor
  · rintro ⟨⟨op', row⟩, hentry, heq⟩
    obtain ⟨hentry, hopen⟩ := mem_filter.1 hentry
    cases heq
    exact ⟨AList.mem_lookup_iff.2 hentry, of_decide_eq_true hopen⟩
  · rintro ⟨hlookup, hopen⟩
    exact ⟨⟨op, (request, name)⟩,
      mem_filter.2 ⟨AList.mem_lookup_iff.1 hlookup, decide_eq_true hopen⟩, rfl⟩

theorem nodup_pending (g : Gathered) : (g.pending.map Prod.fst).Nodup := by
  have hkeys : g.pending.map Prod.fst =
      (g.scheduledOps.entries.filter fun entry => entry.1 ∉ g.cancelledOrExecuted).map
        Sigma.fst := by
    unfold Gathered.pending
    rw [map_map]
    rfl
  rw [hkeys]
  exact g.scheduledOps.nodupKeys.sublist filter_sublist

/-- **What is pending, from the rows that were read.** -/
theorem Read.mem_pending_iff (h : Read timelock events g) : (op, request, name) ∈ g.pending ↔
      name = timelock ∧ events.findSome? (scheduledRequest timelock op) = some request ∧
        ∀ event ∈ events, ¬ Closes timelock op event := by
  have hopen : op ∉ g.cancelledOrExecuted ↔ ∀ event ∈ events, ¬ Closes timelock op event := by
    rw [h.closed]
    simp
  rw [mem_pending, hopen]
  constructor
  · rintro ⟨hlookup, hnone⟩
    rw [h.scheduled op hnone] at hlookup
    obtain ⟨request', hrequest, heq⟩ := Option.map_eq_some_iff.1 hlookup
    cases heq
    exact ⟨rfl, hrequest, hnone⟩
  · rintro ⟨rfl, hrequest, hnone⟩
    exact ⟨by rw [h.scheduled op hnone, hrequest]; rfl, hnone⟩

end

/-! ## The scan checks the log and folds its rows -/

section

variable {D : Type} [DecidableEq D] {env : LogEnv TimelockEvent D} {dir : Directory}
  {timelock : String} {ctx : FileContext} {s s' : TimelockScan} {raw : Text}

theorem scanTimelockLine_eq_ok_iff : scanTimelockLine env dir timelock ctx s raw = .ok s' ↔
      scanLine env dir chainQuery ctx ⟨s.cursor, none⟩ raw = .ok ⟨s'.cursor, none⟩ ∧
        (readLine env raw).toList.foldl (gatherRow timelock) s.gathered = s'.gathered := by
  obtain ⟨c', g'⟩ := s'
  unfold scanTimelockLine scanLine
  rcases htext : Utf8.decode (stripLineTerminator raw) with - | text
  · simp
  dsimp only
  split_ifs with hblank
  · have hnone : readLine env raw = none := fromSlice_eq_none_of_isBlank htext hblank
    simp [hnone]
  · rcases he : readLine env raw with - | e
    · simp
    rw [bind_eq_ok_iff, Reader.scanEntry_eq_ok_iff]
    constructor
    · rintro ⟨hash, hrow, heq⟩
      cases heq
      exact ⟨⟨rfl, hash, hrow, none, rfl, rfl⟩, rfl⟩
    · rintro ⟨⟨-, hash, hrow, found, -, heq⟩, hg⟩
      obtain ⟨hcursor, -⟩ := Scan.mk.inj heq
      refine ⟨hash, hrow, congrArg Except.ok ?_⟩
      rw [hcursor, ← hg]
      rfl

theorem scanLine_chainQuery {c : Cursor} {s : Scan Unit}
    (h : scanLine env dir chainQuery ctx ⟨c, none⟩ raw = .ok s) : s = ⟨s.cursor, none⟩ := by
  have hreads : Reader.Reads (chainQuery : Query TimelockEvent D Unit) id fun _ => none := by
    intro file line rowHash kind found hfound
    obtain rfl := Except.ok.inj hfound
    rfl
  have hbest := Reader.scanLine_best hreads h
  obtain ⟨cursor, best⟩ := s
  cases best with
  | none => rfl
  | some found => cases hraw : readLine env raw <;> simp [hraw] at hbest

theorem scanTimelockLines_eq_ok_iff {raws : List Text} :
    raws.foldlM (scanTimelockLine env dir timelock ctx) s = .ok s' ↔
      raws.foldlM (scanLine env dir chainQuery ctx) ⟨s.cursor, none⟩ = .ok ⟨s'.cursor, none⟩ ∧
        (raws.filterMap (readLine env)).foldl (gatherRow timelock) s.gathered = s'.gathered := by
  induction raws generalizing s with
  | nil =>
    obtain ⟨c, g⟩ := s
    obtain ⟨c', g'⟩ := s'
    simp [pure, Except.pure]
  | cons raw raws ih =>
    rw [foldlM_cons, foldlM_cons, bind_eq_ok_iff, bind_eq_ok_iff, filterMap_readLine_cons,
      foldl_append]
    constructor
    · rintro ⟨s₁, hline, hrest⟩
      obtain ⟨hline, hgathered⟩ := scanTimelockLine_eq_ok_iff.1 hline
      obtain ⟨hrest, hlater⟩ := ih.1 hrest
      exact ⟨⟨_, hline, hrest⟩, by rw [hgathered, hlater]⟩
    · rintro ⟨⟨t, hline, hrest⟩, hgathered⟩
      obtain ⟨c, best⟩ := t
      obtain rfl : best = none := congrArg Scan.best (scanLine_chainQuery hline)
      exact ⟨⟨c, _⟩, scanTimelockLine_eq_ok_iff.2 ⟨hline, rfl⟩, ih.2 ⟨hrest, hgathered⟩⟩

variable {g' : Gathered}

theorem scanFileForTimelockOperations_eq_ok_iff {g : Gathered} :
    scanFileForTimelockOperations env dir timelock ctx g = .ok g' ↔
      scanFile env dir chainQuery ctx = .ok none ∧
        (fileEntries env dir ctx.name).foldl (gatherRow timelock) g = g' := by
  unfold scanFileForTimelockOperations scanFile
  simp only [bind_eq_ok_iff, Except.ok.injEq]
  constructor
  · rintro ⟨content, hopen, s, hlines, rfl⟩
    obtain ⟨hlines, hgathered⟩ := scanTimelockLines_eq_ok_iff.1 hlines
    refine ⟨⟨content, hopen, _, hlines, rfl⟩, ?_⟩
    rw [fileEntries_eq (Reader.openRegularFile_eq_ok hopen)]
    exact hgathered
  · rintro ⟨⟨content, hopen, s, hlines, hbest⟩, hgathered⟩
    obtain ⟨cursor, best⟩ := s
    obtain rfl : best = none := hbest
    rw [fileEntries_eq (Reader.openRegularFile_eq_ok hopen)] at hgathered
    exact ⟨content, hopen, ⟨cursor, g'⟩, scanTimelockLines_eq_ok_iff.2 ⟨hlines, hgathered⟩, rfl⟩

variable {hmacKey : Option Text}

theorem scanFilesForTimelockOperations_eq_ok_iff {hasRotatedSiblings : Bool} {names : List Text}
    {g : Gathered} :
    scanFilesForTimelockOperations env dir timelock hmacKey hasRotatedSiblings names g = .ok g' ↔
      scanFiles env dir chainQuery hmacKey hasRotatedSiblings names = .ok none ∧
        (names.flatMap (fileEntries env dir)).foldl (gatherRow timelock) g = g' := by
  induction names generalizing g with
  | nil => simp [scanFilesForTimelockOperations, scanFiles]
  | cons name names ih =>
    unfold scanFilesForTimelockOperations scanFiles
    rw [flatMap_cons, foldl_append]
    split_ifs with hexists hactive
    · rw [bind_eq_ok_iff, bind_eq_ok_iff]
      constructor
      · rintro ⟨g₁, hfile, hrest⟩
        obtain ⟨hscan, rfl⟩ := scanFileForTimelockOperations_eq_ok_iff.1 hfile
        exact ⟨⟨none, hscan, (ih.1 hrest).1⟩, (ih.1 hrest).2⟩
      · rintro ⟨⟨found, hfile, hrest⟩, hgathered⟩
        have hfound : found = none := by
          split_ifs at hrest with hsome
          · exact Except.ok.inj hrest
          · exact Option.not_isSome_iff_eq_none.1 hsome
        subst hfound
        exact ⟨_, scanFileForTimelockOperations_eq_ok_iff.2 ⟨hfile, rfl⟩, ih.2 ⟨hrest, hgathered⟩⟩
    · rw [ih, Reader.fileEntries_of_not_exists (Bool.eq_false_of_not_eq_true hexists)]
      rfl
    · simp

theorem foldl_gatherRow (entries : List (AuditEntry TimelockEvent)) (g : Gathered) :
    entries.foldl (gatherRow timelock) g = (eventsOf entries).foldl (gather timelock) g := by
  unfold eventsOf
  rw [foldl_filterMap]
  congr 1
  funext g e
  unfold gatherRow
  cases eventOf e.eventKind <;> rfl

variable {pending : List (String × String × String)}

theorem findPendingTimelockOperations_eq_ok_iff :
    findPendingTimelockOperations env dir hmacKey timelock = .ok pending ↔
      Readable env dir hmacKey ∧
        ((scannedEvents env dir).foldl (gather timelock) ⟨∅, ∅⟩).pending = pending := by
  unfold findPendingTimelockOperations Readable findLatest scannedEvents
  rw [← foldl_gatherRow]
  simp only [bind_eq_ok_iff, scanFilesForTimelockOperations_eq_ok_iff, Except.ok.injEq]
  constructor
  · rintro ⟨g, ⟨hreadable, rfl⟩, rfl⟩
    exact ⟨hreadable, rfl⟩
  · rintro ⟨hreadable, rfl⟩
    exact ⟨_, ⟨hreadable, rfl⟩, rfl⟩

variable {event : TimelockEvent}

omit [DecidableEq D] in
theorem mem_scannedEvents : event ∈ scannedEvents env dir ↔ event ∈ loggedEvents env dir := by
  have hfiles : (collectFilesNewestFirst env dir).Perm (archives env dir ++ [env.stem]) := by
    unfold collectFilesNewestFirst
    rw [← reverse_concat']
    exact reverse_perm _
  exact (List.Perm.filterMap _ (List.Perm.flatMap_right _ hfiles)).mem_iff

variable {request : String}

theorem mem_pendingTimelockOperations {op name : String}
    (h : findPendingTimelockOperations env dir hmacKey timelock = .ok pending) :
    (op, request, name) ∈ pending ↔ name = timelock ∧
        (scannedEvents env dir).findSome? (scheduledRequest timelock op) = some request ∧
        ∀ event ∈ loggedEvents env dir, ¬ Closes timelock op event := by
  obtain ⟨-, rfl⟩ := findPendingTimelockOperations_eq_ok_iff.1 h
  have hread := (Read.nil timelock).foldl (scannedEvents env dir)
  rw [nil_append] at hread
  rw [hread.mem_pending_iff]
  simp only [mem_scannedEvents]

theorem scheduledRequest_eq_some {op : String} : scheduledRequest timelock op event = some request ↔
      event = .saTimelockScheduled op timelock request := by
  cases event with
  | saTimelockScheduled op' name request' =>
    simp only [scheduledRequest]
    split_ifs with hrow
    · obtain ⟨rfl, rfl⟩ := hrow
      simp
    · simp only [TimelockEvent.saTimelockScheduled.injEq, false_iff]
      exact fun heq => hrow ⟨heq.1, heq.2.1⟩
  | saTimelockCancelled op' name | saTimelockExecuted op' name | other kind =>
    simp [scheduledRequest]

theorem mem_map_pending (h : findPendingTimelockOperations env dir hmacKey timelock = .ok pending)
    {op : String} : op ∈ pending.map Prod.fst ↔
      (∃ request, .saTimelockScheduled op timelock request ∈ loggedEvents env dir) ∧
        ∀ event ∈ loggedEvents env dir, ¬ Closes timelock op event := by
  rw [mem_map]
  constructor
  · rintro ⟨⟨op', request, name⟩, hmem, rfl⟩
    obtain ⟨-, hrequest, hopen⟩ := (mem_pendingTimelockOperations h).1 hmem
    obtain ⟨event, hevent, hrow⟩ := exists_of_findSome?_eq_some hrequest
    rw [scheduledRequest_eq_some] at hrow
    subst hrow
    exact ⟨⟨request, mem_scannedEvents.1 hevent⟩, hopen⟩
  · rintro ⟨⟨request, hrow⟩, hopen⟩
    have hsome : ((scannedEvents env dir).findSome? (scheduledRequest timelock op)).isSome := by
      rw [List.findSome?_isSome_iff]
      exact ⟨_, mem_scannedEvents.2 hrow, by rw [scheduledRequest_eq_some.2 rfl]; rfl⟩
    obtain ⟨request', hrequest'⟩ := Option.isSome_iff_exists.1 hsome
    exact ⟨(op, request', timelock),
      (mem_pendingTimelockOperations h).2 ⟨rfl, hrequest', hopen⟩, rfl⟩

theorem findSome?_scheduledRequest {events : List TimelockEvent} {op : String}
    (hsole : ∀ request', .saTimelockScheduled op timelock request' ∈ events → request' = request) :
    events.findSome? (scheduledRequest timelock op) = some request ↔
      .saTimelockScheduled op timelock request ∈ events := by
  constructor
  · intro h
    obtain ⟨event, hevent, hrow⟩ := exists_of_findSome?_eq_some h
    rw [scheduledRequest_eq_some] at hrow
    exact hrow ▸ hevent
  · intro h
    have hsome : (events.findSome? (scheduledRequest timelock op)).isSome := by
      rw [List.findSome?_isSome_iff]
      exact ⟨_, h, by rw [scheduledRequest_eq_some.2 rfl]; rfl⟩
    obtain ⟨request', hrequest'⟩ := Option.isSome_iff_exists.1 hsome
    obtain ⟨event, hevent, hrow⟩ := exists_of_findSome?_eq_some hrequest'
    rw [scheduledRequest_eq_some] at hrow
    subst hrow
    rw [hrequest', hsole request' hevent]

end

/-- **A readable log gives the operations with a scheduled row and no cancelled or executed one,
each once and with the request of the first scheduled row the scan meets.  Where the log was rotated
does not decide which operations these are, nor the request of an operation scheduled once.** -/
theorem pending_timelock_operations {D : Type} [DecidableEq D] (env : LogEnv TimelockEvent D)
    (timelock : String) : (∀ dir hmacKey, Readable env dir hmacKey ↔
      ∃ pending, findPendingTimelockOperations env dir hmacKey timelock = .ok pending) ∧
    (∀ dir hmacKey pending, findPendingTimelockOperations env dir hmacKey timelock = .ok pending →
      (pending.map Prod.fst).Nodup ∧ (∀ op, op ∈ pending.map Prod.fst ↔
        (∃ request, .saTimelockScheduled op timelock request ∈ loggedEvents env dir) ∧
          ∀ event ∈ loggedEvents env dir, ¬ Closes timelock op event) ∧
      ∀ op request name, (op, request, name) ∈ pending → name = timelock ∧
        (scannedEvents env dir).findSome? (scheduledRequest timelock op) = some request) ∧
    ∀ dir dir' hmacKey hmacKey' pending pending', loggedEvents env dir = loggedEvents env dir' →
      findPendingTimelockOperations env dir hmacKey timelock = .ok pending →
      findPendingTimelockOperations env dir' hmacKey' timelock = .ok pending' →
      (pending.map Prod.fst).Perm (pending'.map Prod.fst) ∧
        ∀ op request, (∀ request', .saTimelockScheduled op timelock request' ∈
            loggedEvents env dir → request' = request) →
          ((op, request, timelock) ∈ pending ↔ (op, request, timelock) ∈ pending') := by
  have hnodup : ∀ dir hmacKey pending,
      findPendingTimelockOperations env dir hmacKey timelock = .ok pending →
        (pending.map Prod.fst).Nodup := by
    intro dir hmacKey pending h
    obtain ⟨-, rfl⟩ := findPendingTimelockOperations_eq_ok_iff.1 h
    exact nodup_pending _
  refine ⟨fun dir hmacKey => ?_, fun dir hmacKey pending h => ?_,
    fun dir dir' hmacKey hmacKey' pending pending' hlog h h' => ?_⟩
  · simp only [findPendingTimelockOperations_eq_ok_iff, exists_and_left, exists_eq', and_true]
  · refine ⟨hnodup dir hmacKey pending h, fun op => mem_map_pending h, fun op request name hmem => ?_⟩
    obtain ⟨hname, hrequest, -⟩ := (mem_pendingTimelockOperations h).1 hmem
    exact ⟨hname, hrequest⟩
  · constructor
    · refine (perm_ext_iff_of_nodup (hnodup dir hmacKey pending h)
        (hnodup dir' hmacKey' pending' h')).2 fun op => ?_
      rw [mem_map_pending h, mem_map_pending h', hlog]
    · intro op request hsole
      have hsole₁ : ∀ request', .saTimelockScheduled op timelock request' ∈
          scannedEvents env dir → request' = request :=
        fun request' hmem => hsole request' (mem_scannedEvents.1 hmem)
      have hsole₂ : ∀ request', .saTimelockScheduled op timelock request' ∈
          scannedEvents env dir' → request' = request :=
        fun request' hmem => hsole request' (by rw [hlog]; exact mem_scannedEvents.1 hmem)
      rw [mem_pendingTimelockOperations h, mem_pendingTimelockOperations h',
        findSome?_scheduledRequest hsole₁, findSome?_scheduledRequest hsole₂, mem_scannedEvents,
        mem_scannedEvents, hlog]

/-! ## A log that was rotated once -/

section

variable {D : Type} (env : LogEnv TimelockEvent D)

def rowDigest (d : D) (kind : EventKind TimelockEvent) : D :=
  env.hashes.sha256 (Framing.bytes (canonicalJsonBody env (bareEntry kind (env.hashes.hashText d))) ++
    [.digest d])

/-- The rows of some events, behind the row of a digest. -/
def chained : D → List (EventKind TimelockEvent) → List (AuditEntry TimelockEvent)
  | _, [] => []
  | d, kind :: kinds => bareEntry kind (env.hashes.hashText d) :: chained (rowDigest env d kind) kinds

/-- The rows before a rotation, with the handoff at their end. -/
def archivedKinds (archive : Text) (before : List TimelockEvent) :
    List (EventKind TimelockEvent) :=
  before.map .other ++ [.auditRotationHandoff archive]

def genesis : D := env.hashes.sha256 (Framing.bytes (List.replicate 32 0))

def rotatedLog (archive : Text) (before after : List TimelockEvent) : Directory where
  files := ((∅ : AList fun _ : Text => FileNode).insert archive
    (.regular ((chained env (genesis env) (archivedKinds archive before)).flatMap (line env)))).insert
      env.stem (.regular ((chained env ((archivedKinds archive before).foldl (rowDigest env)
        (genesis env)) (after.map .other)).flatMap (line env)))
  sidecars := ∅

theorem linked_chained (d : D) (kinds : List (EventKind TimelockEvent)) :
    Linked env (env.hashes.hashText d) (chained env d kinds)
      (env.hashes.hashText (kinds.foldl (rowDigest env) d)) := by
  induction kinds generalizing d with
  | nil => rfl
  | cons kind kinds ih =>
    exact ⟨rfl, _, computeEntryHash_eq_some.2 ⟨d, rfl, rfl⟩, ih (rowDigest env d kind)⟩

theorem eventsOf_chained (d : D) (kinds : List (EventKind TimelockEvent)) :
    eventsOf (chained env d kinds) = kinds.filterMap eventOf := by
  induction kinds generalizing d with
  | nil => rfl
  | cons kind kinds ih =>
    unfold chained eventsOf
    rw [filterMap_cons]
    have hrest := ih (rowDigest env d kind)
    unfold eventsOf at hrest
    rw [hrest]
    rfl

theorem eventsOf_append (l m : List (AuditEntry TimelockEvent)) :
    eventsOf (l ++ m) = eventsOf l ++ eventsOf m := filterMap_append

theorem filterMap_eventOf (events : List TimelockEvent) :
    (events.map EventKind.other).filterMap eventOf = events := by
  rw [filterMap_map]
  exact filterMap_some

variable {env} {archive : Text} (harchive : isRotatedSibling env.stem archive = true)
  (before after : List TimelockEvent)

include harchive

theorem lookup_archive : (rotatedLog env archive before after).files.lookup archive =
    some (.regular ((chained env (genesis env) (archivedKinds archive before)).flatMap
      (line env))) :=
  (AList.lookup_insert_ne (ne_stem_of_isRotatedSibling harchive)).trans (AList.lookup_insert _)

theorem archives_rotatedLog : archives env (rotatedLog env archive before after) = [archive] := by
  refine archives_eq (pairwise_singleton _ _) fun name => ?_
  rw [mem_singleton]
  constructor
  · rintro rfl
    exact ⟨harchive, by rw [lookup_archive harchive]; rfl⟩
  · rintro ⟨hsibling, hfile⟩
    by_contra hne
    have hname : name ≠ env.stem := ne_stem_of_isRotatedSibling hsibling
    have hnone : (rotatedLog env archive before after).files.lookup name = none :=
      (AList.lookup_insert_ne hname).trans ((AList.lookup_insert_ne hne).trans
        (AList.lookup_empty name))
    rw [hnone] at hfile
    cases hfile

theorem readable_rotatedLog [DecidableEq D] :
    Readable env (rotatedLog env archive before after) none := by
  unfold Readable findLatest collectFilesNewestFirst
  rw [archives_rotatedLog harchive]
  refine scanFiles_of_holdsChain fun name hname => ?_
  simp only [reverse_singleton, mem_cons, not_mem_nil, or_false] at hname
  rcases hname with rfl | rfl
  · exact ⟨_, _, _, AList.lookup_insert _, linked_chained env _ _, by simp [fileContext]⟩
  · exact ⟨_, _, _, lookup_archive harchive before after, linked_chained env _ _,
      by simp [fileContext]⟩

theorem fileEntries_archive : eventsOf (fileEntries env (rotatedLog env archive before after)
    archive) = before := by
  rw [fileEntries_eq (lookup_archive harchive before after), parsedEntries_lines, eventsOf_chained]
  unfold archivedKinds
  rw [filterMap_append, filterMap_eventOf]
  exact append_nil before

omit harchive in
theorem fileEntries_active : eventsOf (fileEntries env (rotatedLog env archive before after)
    env.stem) = after := by
  rw [fileEntries_eq (AList.lookup_insert _), parsedEntries_lines, eventsOf_chained,
    filterMap_eventOf]

theorem loggedEvents_rotatedLog :
    loggedEvents env (rotatedLog env archive before after) = before ++ after := by
  unfold loggedEvents logEntries
  rw [archives_rotatedLog harchive]
  simp only [singleton_append, flatMap_cons, flatMap_nil, append_nil]
  rw [eventsOf_append, fileEntries_archive harchive, fileEntries_active]

theorem scannedEvents_rotatedLog :
    scannedEvents env (rotatedLog env archive before after) = after ++ before := by
  unfold scannedEvents collectFilesNewestFirst
  rw [archives_rotatedLog harchive]
  simp only [reverse_singleton, flatMap_cons, flatMap_nil, append_nil]
  rw [eventsOf_append, fileEntries_archive harchive, fileEntries_active]

theorem findPending_rotatedLog [DecidableEq D] (timelock : String) :
    findPendingTimelockOperations env (rotatedLog env archive before after) none timelock =
      .ok ((after ++ before).foldl (gather timelock) ⟨∅, ∅⟩).pending := by
  refine findPendingTimelockOperations_eq_ok_iff.2 ⟨readable_rotatedLog harchive before after, ?_⟩
  rw [scannedEvents_rotatedLog harchive]

end

def januaryArchive : Text := Framing.utf8 "alice.jsonl.20260101T000000000"

theorem isRotatedSibling_januaryArchive :
    isRotatedSibling (codedLog TimelockEvent).stem januaryArchive = true := by
  decide +kernel

/-- A request to schedule the operation `0a`. -/
def scheduling (request : String) : TimelockEvent :=
  .saTimelockScheduled "0a" "CAAAA...AAAAA" request

/-- The answer for the timelock of `0a`. -/
noncomputable def pendingIn (dir : Directory) : Except ReadError (List (String × String × String)) :=
  findPendingTimelockOperations (codedLog TimelockEvent) dir none "CAAAA...AAAAA"

/-- An operation that was scheduled, cancelled and scheduled again is not in the answer.  Of an
operation scheduled twice the answer has the first request or the second one, as the log was
rotated. -/
theorem rescheduled_operation_missing : (∃ dir, loggedEvents (codedLog TimelockEvent) dir =
        [scheduling "request-1", .saTimelockCancelled "0a" "CAAAA...AAAAA", scheduling "request-2"] ∧
      pendingIn dir = .ok []) ∧
    ∃ dir dir', loggedEvents (codedLog TimelockEvent) dir =
        [scheduling "request-1", scheduling "request-2"] ∧
      loggedEvents (codedLog TimelockEvent) dir' = loggedEvents (codedLog TimelockEvent) dir ∧
      pendingIn dir = .ok [("0a", "request-1", "CAAAA...AAAAA")] ∧
      pendingIn dir' = .ok [("0a", "request-2", "CAAAA...AAAAA")] := by
  have hname := isRotatedSibling_januaryArchive
  have hpending : ∀ before after, pendingIn (rotatedLog _ januaryArchive before after) = _ :=
    fun before after => findPending_rotatedLog hname before after _
  refine ⟨⟨rotatedLog (codedLog TimelockEvent) januaryArchive
      [scheduling "request-1", .saTimelockCancelled "0a" "CAAAA...AAAAA"] [scheduling "request-2"],
      loggedEvents_rotatedLog hname _ _, ?_⟩,
    rotatedLog (codedLog TimelockEvent) januaryArchive
      [scheduling "request-1", scheduling "request-2"] [],
    rotatedLog (codedLog TimelockEvent) januaryArchive [scheduling "request-1"]
      [scheduling "request-2"], loggedEvents_rotatedLog hname _ _, ?_, ?_, ?_⟩
  · rw [hpending]
    decide
  · rw [loggedEvents_rotatedLog hname, loggedEvents_rotatedLog hname]
    rfl
  · rw [hpending]
    decide
  · rw [hpending]
    decide

end AgentWallet.AuditLog.Timelocks
