/-
What becomes of each owner of a batch.

A batch accounts for its owners by position. Each has a record, which is valid and
bears the seed and the name that the owner came with, or a diagnostic, which begins
with what the owner is called (`Accounts`). A pipelined batch passes over owners on
three occasions: when lookups are fired, when headers are read and when chunks are
drained. The first two leave the others in their order (`Sifts`), so what the last
one accounts for is put back into place.

A batch of either sort fails of nothing but what disrupts the session, and of integers
that cannot be told (`Halted`).
-/

import DhtRecords.Proofs.Overlong

namespace DhtRecords.Fetch

variable {τ ν : Type}

open World Op

/-! ### Accounts -/

/-- Whether these are the records and the diagnostics of owners: for each one either a valid record, in the
order of the owners, or a diagnostic, in any order. -/
inductive Accounts : List Link → List Record → List String → Prop
  | nil : Accounts [] [] []
  | found {link : Link} {links : List Link} {record : Record} {records : List Record}
      {errors : List String} : record.isValid = true → record.owner = link.name →
      record.seed = link.seed → Accounts links records errors →
      Accounts (link :: links) (record :: records) errors
  | passed {link : Link} {links : List Link} {records : List Record} {errors errors' : List String}
      (message : String) : Accounts links records errors →
      errors'.Perm (link.problem message :: errors) → Accounts (link :: links) records errors'

/-- Every owner is accounted for once. -/
theorem Accounts.length {links : List Link} {records : List Record} {errors : List String}
    (accounts : Accounts links records errors) : records.length + errors.length = links.length := by
  induction accounts with
  | nil => rfl
  | found _ _ _ _ ih =>
    rw [List.length_cons, List.length_cons, ← ih]
    omega
  | passed message _ order ih =>
    rw [order.length_eq, List.length_cons, List.length_cons, ← ih]
    omega

/-- Whether some owners are passed over with diagnostics and the others are kept, all in their order. -/
inductive Sifts : List Link → List Link → List String → Prop
  | nil : Sifts [] [] []
  | keep (link : Link) {links kept : List Link} {errors : List String} :
      Sifts links kept errors → Sifts (link :: links) (link :: kept) errors
  | pass (link : Link) (message : String) {links kept : List Link} {errors : List String} :
      Sifts links kept errors → Sifts (link :: links) kept (link.problem message :: errors)

/-- Who accounts for the owners that are kept accounts for all. -/
theorem Sifts.accounts {links kept : List Link} {early late : List String} {records : List Record}
    (sifts : Sifts links kept early) (accounts : Accounts kept records late) :
    Accounts links records (early ++ late) := by
  -- An owner that was passed over early is put back in front of those that come after it.
  induction sifts generalizing records late with
  | nil => exact accounts
  | keep link sifts ih =>
    cases accounts with
    | found valid owner seed rest => exact .found valid owner seed (ih rest)
    | passed message rest order =>
      exact .passed message (ih rest) ((order.append_left _).trans List.perm_middle)
  | pass link message sifts ih => exact .passed message (ih accounts) (.refl _)

/-! ### Batches that grow -/

/-- Whether a batch has grown by what accounts for these owners. -/
def Gains (links : List Link) (batch batch' : Batch) : Prop :=
  ∃ records errors, batch'.records = batch.records ++ records ∧
    batch'.errors = batch.errors ++ errors ∧ Accounts links records errors

/-- Whether a batch has grown by the diagnostics of the owners that are not kept. -/
def Passes (links kept : List Link) (batch batch' : Batch) : Prop :=
  batch'.records = batch.records ∧ ∃ errors, batch'.errors = batch.errors ++ errors ∧
    Sifts links kept errors

theorem Gains.nil (batch : Batch) : Gains [] batch batch :=
  ⟨[], [], (List.append_nil _).symm, (List.append_nil _).symm, .nil⟩

theorem Gains.add {link : Link} {links : List Link} {outcome : Except String Record}
    {batch batch' : Batch}
    (sound : ∀ record, outcome = .ok record → record.isValid = true ∧ record.seed = link.seed)
    (rest : Gains links (batch.add link outcome) batch') : Gains (link :: links) batch batch' := by
  obtain ⟨records, errors, grown, said, accounts⟩ := rest
  cases outcome with
  | ok record =>
    obtain ⟨valid, seed⟩ := sound record rfl
    exact ⟨{ record with owner := link.name } :: records, errors,
      grown.trans (List.append_assoc ..), said, .found valid rfl seed accounts⟩
  | error message =>
    exact ⟨records, link.problem message :: errors, grown, said.trans (List.append_assoc ..),
      .passed message accounts (.refl _)⟩

theorem Passes.nil (batch : Batch) : Passes [] [] batch batch :=
  ⟨rfl, [], (List.append_nil _).symm, .nil⟩

theorem Passes.keep {links kept : List Link} {batch batch' : Batch} (link : Link)
    (rest : Passes links kept batch batch') : Passes (link :: links) (link :: kept) batch batch' := by
  obtain ⟨same, errors, said, sifts⟩ := rest
  exact ⟨same, errors, said, sifts.keep link⟩

theorem Passes.pass {links kept : List Link} {batch batch' : Batch} {link : Link} {message : String}
    (rest : Passes links kept (batch.add link (.error message)) batch') :
    Passes (link :: links) kept batch batch' := by
  obtain ⟨same, errors, said, sifts⟩ := rest
  exact ⟨same, link.problem message :: errors, said.trans (List.append_assoc ..),
    sifts.pass link message⟩

theorem Passes.gains {links kept : List Link} {batch middle batch' : Batch}
    (passes : Passes links kept batch middle) (gains : Gains kept middle batch') :
    Gains links batch batch' := by
  obtain ⟨same, early, passed, sifts⟩ := passes
  obtain ⟨records, late, grown, said, accounts⟩ := gains
  refine ⟨records, early ++ late, ?_, ?_, sifts.accounts accounts⟩
  · rw [grown, same]
  · rw [said, passed, List.append_assoc]

variable [Quantity τ] [Overlay τ ν]

/-! ### What is found is valid -/

section

variable {operation : String} {world after : World τ ν}

theorem valid_of_record {owner seed : Bytes} {found : Record}
    (run : (record owner seed operation).run world = (.ok (.ok found), after)) :
    found.isValid = true ∧ found.seed = seed := by
  obtain ⟨answer, asked, -, run⟩ := run_bind_eq_ok run
  split at run
  · cases run
  · rw [run_bind_ok (run_get asked)] at run
    dsimp only at run
    split at run
    · exact (not_ok_of_refuse run).elim
    · obtain ⟨chunks, collected, -, run⟩ := run_bind_eq_ok run
      split at run
      · cases run
      · obtain ⟨valid, rfl, -⟩ := of_accept_eq_ok run
        exact ⟨valid, rfl⟩

theorem valid_of_drain {peer : Resolved} {found : Record}
    (run : (drain peer operation).run world = (.ok (.ok found), after)) :
    found.isValid = true ∧ found.seed = peer.link.seed := by
  obtain ⟨chunks, drained, -, run⟩ := run_bind_eq_ok run
  split at run
  · cases run
  · rw [run_bind_ok (run_get drained)] at run
    obtain ⟨valid, rfl, -⟩ := of_accept_eq_ok (run_of_retold run)
    exact ⟨valid, rfl⟩

/-! ### What batches grow by -/

theorem gains_inTurnAfter {batch batch' : Batch} {links : List Link}
    (run : (inTurnAfter operation batch links).run world = (.ok batch', after)) :
    Gains links batch batch' := by
  induction links generalizing batch world with
  | nil =>
    cases run
    exact .nil _
  | cons link rest ih =>
    rw [inTurnAfter] at run
    obtain ⟨outcome, fetched, fetching, run⟩ := run_bind_eq_ok run
    refine .add (fun found same => ?_) (ih run)
    cases outcome with
    | error error => cases same
    | ok result =>
      cases same
      exact valid_of_record fetching

theorem passes_fireHeaders {salt : String} {first : Bool} {batch batch' : Batch}
    {links issued : List Link}
    (run : (fireHeaders salt first batch links).run world = (.ok (issued, batch'), after)) :
    Passes links issued batch batch' := by
  induction links generalizing first batch issued world with
  | nil =>
    cases run
    exact .nil _
  | cons link rest ih =>
    rw [fireHeaders, run_bind_ok (run_get world)] at run
    obtain ⟨_, paced, -, run⟩ := run_bind_eq_ok run
    rw [run_bind_ok (run_modify _ paced)] at run
    obtain ⟨fired, asked, -, run⟩ := run_bind_eq_ok run
    split at run
    · exact .pass (ih run)
    · obtain ⟨⟨others, batch'⟩, last, firing, run⟩ := run_bind_eq_ok run
      cases run
      exact .keep link (ih firing)

omit [Quantity τ] [Overlay τ ν] in
theorem passes_resolveAll {salt : String} {batch batch' : Batch} {links : List Link}
    {resolved : List Resolved} (step : resolveAll salt world batch links = (resolved, batch')) :
    Passes links (resolved.map Resolved.link) batch batch' := by
  induction links generalizing batch resolved with
  | nil =>
    cases step
    exact .nil _
  | cons link rest ih =>
    rw [resolveAll] at step
    split at step
    · exact .pass (ih step)
    · next peer resolve =>
      obtain rfl := link_of_resolve resolve
      cases step
      exact .keep peer.link (ih (Prod.eta _))

theorem gains_drainAll {batch batch' : Batch} {peers : List Resolved}
    (run : (drainAll operation batch peers).run world = (.ok batch', after)) :
    Gains (peers.map Resolved.link) batch batch' := by
  induction peers generalizing batch world with
  | nil =>
    cases run
    exact .nil _
  | cons peer rest ih =>
    rw [drainAll] at run
    obtain ⟨outcome, drained, draining, run⟩ := run_bind_eq_ok run
    refine .add (fun found same => ?_) (ih run)
    subst same
    exact valid_of_drain draining

theorem gains_pipelined {batch : Batch} {links : List Link}
    (run : (pipelined links operation).run world = (.ok batch, after)) : Gains links {} batch := by
  rw [pipelined] at run
  obtain ⟨⟨issued, fired⟩, asked, firing, run⟩ := run_bind_eq_ok run
  dsimp only at run
  rw [run_bind_ok (run_get asked), run_bind_ok (run_modifyGet _ asked), run_bind_ok (run_get _)]
    at run
  -- Who is accounted for does not depend on what has come by then.
  revert run
  generalize (Get.waitForAll _ asked.settings.headerSettle asked).2 = waited
  intro run
  rcases resolution : resolveAll (headerSalt operation) waited fired issued with ⟨resolved, passed⟩
  rw [resolution] at run
  obtain ⟨_, chunksFired, -, run⟩ := run_bind_eq_ok run
  rw [run_bind_ok (run_get chunksFired), run_bind_ok (run_modifyGet _ chunksFired)] at run
  exact (passes_fireHeaders firing).gains ((passes_resolveAll resolution).gains (gains_drainAll run))

end

/-! ### Whole batches -/

/-- A header of so many chunks without a digest, in its form. -/
def plainHeader (chunks : Nat) : Bytes :=
  (({ operation := "op", chunks := .int chunks } : Header).encode?).getD []

/-- A record, one whose chunk is of another put than its header, and a header of too many chunks. -/
def assortedItems : Entries (Bytes × String) Simnet.Item := ⟨[
  (([1], "op:0"), ⟨plainHeader 1, 7⟩), (([1], "op:1"), ⟨[5, 6], 7⟩),
  (([2], "op:0"), ⟨plainHeader 1, 7⟩), (([2], "op:1"), ⟨[5, 6], 8⟩),
  (([4], "op:0"), ⟨plainHeader 9, 7⟩)]⟩

/-- The record's owner twice, and between these one for each of the others and one of nothing. -/
def assortedLinks : List Link := [
  { owner := [1], seed := [9], name := "first" },
  { owner := [2], name := "torn" },
  { owner := [3], name := "absent" },
  { owner := [4], name := "wide" },
  { owner := [1], name := "again" }]

/-- The names that records are bound to, and the diagnostics, if there is a batch. -/
def outline? {τ ν : Type} (ending : Except Failure Batch × World τ ν) :
    Option (List String × List String) :=
  ending.1.toOption.map fun batch => (batch.records.map Record.owner, batch.errors)

omit [Quantity τ] [Overlay τ ν] in
theorem exists_of_outline? {ending : Except Failure Batch × World τ ν} {names errors : List String}
    (outlined : outline? ending = some (names, errors)) :
    ∃ batch after, ending = (.ok batch, after) ∧ batch.records.map Record.owner = names ∧
      batch.errors = errors := by
  rcases ending with ⟨failure | batch, after⟩ <;> cases outlined
  exact ⟨batch, after, rfl, rfl, rfl⟩

/-- The owner of the chunk that is of another put, whose sequence number has 4301 digits. -/
def overlongItems : Entries (Bytes × String) Simnet.Item := ⟨[
  (([2], "op:0"), ⟨plainHeader 1, 7⟩), (([2], "op:1"), ⟨[5, 6], 10 ^ 4300⟩)]⟩

end DhtRecords.Fetch
