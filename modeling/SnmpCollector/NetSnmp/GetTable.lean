import SnmpCollector.NetSnmp.MessageProcessing

set_option autoImplicit false

/-! # Tables (`get_table` of `Net::SNMP`)

`get_table` asks for the rows of a table one request after the other: with `get-next-request` in
SNMPv1, with `get-bulk-request` in SNMPv2c. Each answer continues where the one before has ended,
until a name is no longer under the base. `getTable_sound` and `getTable_ends` say what holds for
any agent: a table has only rows that the agent has sent, and the requests come to an end.
-/

namespace SnmpCollector.NetSnmp

open Perl

/-! ## Requests and callbacks -/

/-- `$argv`, what is passed along with the callbacks. The hashes are not defined as long as they are
empty. -/
structure TableArgs where
  baseOid : Str
  maxReps : Nat
  repeatCnt : Nat
  table : Hash Str Scalar
  types : Hash Str Asn1Type
  useBulk : Bool

/-- The entry of a name is added to the table. -/
def TableArgs.add (argv : TableArgs) (vb : VarBinds Scalar) (name : Str) : TableArgs :=
  { argv with
    table := argv.table.insert name ((vb.list.lookup name).getD (.str []))
    types := argv.types.insert name ((vb.types.lookup name).getD .null) }

/-- `while (@names)`: the table, and `$next` when it is defined at the end; `none` is a loop that
has been detected. -/
def scanNames (vb : VarBinds Scalar) :
    List Str → TableArgs → Option Str → Option (TableArgs × Option Str)
  | [], argv, next => some (argv, next)
  | name :: names, argv, _ =>
      if !oidBaseMatch argv.baseOid name || vb.types.lookup name == some .endOfMibView then
        some (argv, none)
      else if name ∉ argv.table then scanNames vb names (argv.add vb name) (some name)
      else if argv.repeatCnt + 1 > argv.maxReps then none
      else scanNames vb names { argv with repeatCnt := argv.repeatCnt + 1 } (some name)

/-- What the callback does: another request, or the result. -/
inductive TableStep where
  | request (argv : TableArgs) (next : Str)
  | result (r : Except Str (Hash Str Scalar))

def tableEmpty : Str := "The requested table is empty or does not exist".toList

/-- `_get_table_cb`: a response that tells of an error has no names. -/
def getTableCb (argv : TableArgs) (response : Response) : TableStep :=
  let vb := match response.result with
    | .ok vb => vb
    | .error _ => .empty
  match scanNames vb vb.names argv none with
  | none => .result (.error "A loop was detected with the table on the remote host".toList)
  | some (argv, some next) => .request argv next
  | some (argv, none) =>
      let error := match response.result with
        | .ok _ => none
        | .error e => if response.errorStatus = 2 then none else some e
      match error with
      | some e => .result (.error e)
      | none => .result (if argv.table.keys = [] then .error tableEmpty else .ok argv.table)

/-- The request for what comes after an object identifier. -/
def tableRequest (env : Env) (requestId : Int) (argv : TableArgs) (oid : Str) : Except Str Pdu :=
  if argv.useBulk then prepareGetBulkRequest env requestId 0 argv.maxReps [oid]
  else prepareGetNextRequest env requestId [oid]

/-- A session, with the identifiers of its requests and what comes of each: a response of the agent,
or an error. -/
structure Session where
  env : Env
  requestId : Nat → Int
  respond : Nat → Pdu → Response
  maxMsgSize_le : env.maxMsgSize ≤ 65535
  requestId_nonneg : ∀ k, 0 ≤ requestId k
  requestId_lt : ∀ k, requestId k < 2 ^ 31

/-- The requests of `get_table`, `n` of them at most. -/
def tableLoop (s : Session) : Nat → Nat → TableArgs → Str → Option (Except Str (Hash Str Scalar))
  | 0, _, _, _ => none
  | n + 1, k, argv, oid =>
      match tableRequest s.env (s.requestId k) argv oid with
      | .error e => some (.error e)
      | .ok pdu =>
          match getTableCb argv (s.respond k pdu) with
          | .result r => some r
          | .request argv next => tableLoop s n (k + 1) argv next

/-- `_msg_size_max_reps` -/
def msgSizeMaxReps (env : Env) : Nat := env.maxMsgSize * 17 / 1000

/-- `$argv` at the start. -/
def tableArgs (env : Env) (baseOid : Str) (maxRepetitions : Option Nat) : TableArgs :=
  let argv : TableArgs := ⟨baseOid, 5, 0, ∅, ∅, false⟩
  if env.version = SNMP_VERSION_1 then argv
  else
    match maxRepetitions with
    | none => { argv with useBulk := true, maxReps := msgSizeMaxReps env }
    | some m => if m > 1 then { argv with useBulk := true, maxReps := m } else argv

/-- `get_table` -/
def getTable (s : Session) (baseOid : Str) (maxRepetitions : Option Nat) (n : Nat) :
    Option (Except Str (Hash Str Scalar)) :=
  if !isOidText baseOid then
    some (.error ("The base OBJECT IDENTIFIER \"".toList ++ baseOid
      ++ "\" is expected in dotted decimal notation".toList))
  else if s.env.version = SNMP_VERSION_1 ∧ maxRepetitions.isSome then
    some (.error "The max-repetitions argument is not applicable when using SNMPv1".toList)
  else tableLoop s n 0 (tableArgs s.env baseOid maxRepetitions) baseOid

/-! ## Any agent -/

section AnyAgent

variable {vb : VarBinds Scalar} {names : List Str} {argv argv' : TableArgs}
  {next next' : Option Str}

/-- What a pass over the names of a response preserves: it is kept by an entry that is added under
the base, and by a name that is repeated. -/
theorem scanNames_induction {P : TableArgs → Prop}
    (hadd : ∀ argv name, P argv → name ∈ names → oidBaseMatch argv.baseOid name = true →
      vb.types.lookup name ≠ some .endOfMibView → name ∉ argv.table → P (argv.add vb name))
    (hrepeat : ∀ argv, P argv → argv.repeatCnt + 1 ≤ argv.maxReps →
      P { argv with repeatCnt := argv.repeatCnt + 1 })
    (h : scanNames vb names argv next = some (argv', next')) (hP : P argv) : P argv' := by
  induction names generalizing argv next with
  | nil =>
      obtain ⟨rfl, -⟩ := Prod.mk.inj (Option.some.inj h)
      exact hP
  | cons name names ih =>
      have hadd' := fun argv n hP hn => hadd argv n hP (List.mem_cons_of_mem name hn)
      rw [scanNames] at h
      split at h
      · obtain ⟨rfl, -⟩ := Prod.mk.inj (Option.some.inj h)
        exact hP
      · rename_i hrow
        simp only [Bool.or_eq_true, Bool.not_eq_true', beq_iff_eq, not_or, Bool.not_eq_false]
          at hrow
        split at h
        · rename_i hnew
          exact ih hadd' h (hadd argv name hP List.mem_cons_self hrow.1 hrow.2 hnew)
        · split at h
          · cases h
          · exact ih hadd' h (hrepeat argv hP (by omega))

/-- How far a table has come: its entries, and the names that were repeated. -/
def TableArgs.progress (argv : TableArgs) : Nat := argv.table.keys.length + argv.repeatCnt

theorem progress_add {name : Str} (h : name ∉ argv.table) :
    (argv.add vb name).progress = argv.progress + 1 := by
  have hkeys : ((argv.table.insert name ((vb.list.lookup name).getD (.str []))).keys).length
      = argv.table.keys.length + 1 := by
    rw [AList.keys_insert, List.length_cons, @List.erase_of_not_mem Str instBEqOfDecidableEq _ _ _
      fun hmem => h (AList.mem_keys.mpr hmem)]
  simp only [TableArgs.progress, TableArgs.add, hkeys]
  omega

/-- **A response that continues the table brings it forward.** -/
theorem progress_lt {name : Str} (h : scanNames vb names argv none = some (argv', some name)) :
    argv.progress < argv'.progress := by
  cases names with
  | nil => cases (Prod.mk.inj (Option.some.inj h)).2
  | cons name' names =>
      have hle : ∀ {argv₁ : TableArgs} {x : Option Str},
          scanNames vb names argv₁ x = some (argv', some name) →
            argv₁.progress ≤ argv'.progress := fun {argv₁ x} h =>
        scanNames_induction (P := fun a => argv₁.progress ≤ a.progress)
          (fun a n hP _ _ _ hnew => hP.trans (by rw [progress_add hnew]; omega))
          (fun a hP _ => hP.trans (by simp only [TableArgs.progress]; omega)) h le_rfl
      rw [scanNames] at h
      split at h
      · cases (Prod.mk.inj (Option.some.inj h)).2
      · split at h
        · rename_i hnew
          have hstep := hle h
          rw [progress_add hnew] at hstep
          omega
        · split at h
          · cases h
          · have hstep := hle h
            simp only [TableArgs.progress] at hstep ⊢
            omega

end AnyAgent

/-- A response without names changes nothing. -/
theorem scanNames_empty (argv : TableArgs) :
    scanNames .empty (VarBinds.empty : VarBinds Scalar).names argv none = some (argv, none) := rfl

/-- A table goes on from the last name of a response. -/
theorem getTableCb_request {argv argv' : TableArgs} {response : Response} {next : Str}
    (h : getTableCb argv response = .request argv' next) :
    ∃ vb, response.result = .ok vb ∧ scanNames vb vb.names argv none = some (argv', some next) := by
  simp only [getTableCb] at h
  cases hr : response.result with
  | error e =>
      simp only [hr] at h
      simp only [scanNames_empty] at h
      split at h <;> cases h
  | ok vb =>
      simp only [hr] at h
      split at h
      · cases h
      · rename_i hscan
        obtain ⟨rfl, rfl⟩ := TableStep.request.inj h
        exact ⟨vb, rfl, hscan⟩
      · split at h <;> cases h

/-- A table that is returned is the one that the last response leaves. -/
theorem getTableCb_ok {argv : TableArgs} {response : Response} {table : Hash Str Scalar}
    (h : getTableCb argv response = .result (.ok table)) :
    ∃ vb argv', (response.result = .ok vb ∨ vb = .empty ∧ response.errorStatus = 2) ∧
      scanNames vb vb.names argv none = some (argv', none) ∧ table = argv'.table ∧
      table.keys ≠ [] := by
  have hkeys : ∀ {argv' : TableArgs}, TableStep.result (if argv'.table.keys = [] then
      .error tableEmpty else .ok argv'.table) = .result (.ok table) →
        table = argv'.table ∧ table.keys ≠ [] := fun {argv'} h => by
    split at h
    · cases h
    · rename_i hne
      obtain rfl := Except.ok.inj (TableStep.result.inj h)
      exact ⟨rfl, hne⟩
  simp only [getTableCb] at h
  cases hr : response.result with
  | error e =>
      simp only [hr] at h
      simp only [scanNames_empty] at h
      by_cases hstatus : response.errorStatus = 2
      · rw [if_pos hstatus] at h
        obtain ⟨htable, hne⟩ := hkeys h
        exact ⟨.empty, argv, .inr ⟨rfl, hstatus⟩, scanNames_empty argv, htable, hne⟩
      · rw [if_neg hstatus] at h
        cases h
  | ok vb =>
      simp only [hr] at h
      split at h
      · cases h
      · cases h
      · rename_i argv' hscan
        obtain ⟨htable, hne⟩ := hkeys h
        exact ⟨vb, argv', .inl rfl, hscan, htable, hne⟩

/-- What every response preserves holds of the table that is returned. -/
theorem tableLoop_induction {s : Session} {P : TableArgs → Prop}
    (hstep : ∀ k pdu argv argv' next vb, (s.respond k pdu).result = .ok vb →
      scanNames vb vb.names argv none = some (argv', next) → P argv → P argv')
    {n k : Nat} {argv : TableArgs} {oid : Str} {table : Hash Str Scalar}
    (h : tableLoop s n k argv oid = some (.ok table)) (hP : P argv) :
    ∃ argv', P argv' ∧ table = argv'.table ∧ table.keys ≠ [] := by
  induction n generalizing k argv oid with
  | zero => cases h
  | succ n ih =>
      rw [tableLoop] at h
      split at h
      · cases h
      · split at h
        · rename_i hresult
          obtain rfl := Option.some.inj h
          obtain ⟨vb, argv', hvb, hscan, htable, hne⟩ := getTableCb_ok hresult
          rcases hvb with hvb | ⟨rfl, -⟩
          · exact ⟨argv', hstep _ _ _ _ _ vb hvb hscan hP, htable, hne⟩
          · rw [scanNames_empty] at hscan
            obtain ⟨rfl, -⟩ := Prod.mk.inj (Option.some.inj hscan)
            exact ⟨_, hP, htable, hne⟩
        · rename_i hrequest
          obtain ⟨vb, hvb, hscan⟩ := getTableCb_request hrequest
          exact ih h (hstep _ _ _ _ _ vb hvb hscan hP)

/-- The entries come from responses. -/
structure FromResponses (s : Session) (base : Str) (argv : TableArgs) : Prop where
  baseOid : argv.baseOid = base
  rows : ∀ name v, argv.table.lookup name = some v → oidBaseMatch base name = true ∧
    ∃ k pdu vb, (s.respond k pdu).result = .ok vb ∧ vb.list.lookup name = some v ∧
      vb.types.lookup name ≠ some .endOfMibView

theorem FromResponses.scan {s : Session} {base : Str} {k : Nat} {pdu : Pdu} {vb : VarBinds Scalar}
    (hvb : (s.respond k pdu).result = .ok vb) {argv argv' : TableArgs} {next : Option Str}
    (hscan : scanNames vb vb.names argv none = some (argv', next))
    (h : FromResponses s base argv) : FromResponses s base argv' := by
  refine scanNames_induction (P := FromResponses s base) (fun a name ha hname hmatch htype _ => ?_)
    (fun a ha _ => ⟨ha.baseOid, ha.rows⟩) hscan h
  refine ⟨ha.baseOid, fun name' v hv => ?_⟩
  by_cases hn : name' = name
  · subst hn
    obtain ⟨v', hv'⟩ := Option.isSome_iff_exists.mp
      (AList.lookup_isSome.mpr ((vb.mem_list name').mpr hname))
    rw [TableArgs.add, AList.lookup_insert, hv', Option.getD_some] at hv
    obtain rfl := Option.some.inj hv
    exact ⟨ha.baseOid ▸ hmatch, k, pdu, vb, hvb, hv', htype⟩
  · rw [TableArgs.add, AList.lookup_insert_ne hn] at hv
    exact ha.rows name' v hv

theorem tableArgs_start (env : Env) (baseOid : Str) (maxRepetitions : Option Nat) :
    (tableArgs env baseOid maxRepetitions).baseOid = baseOid ∧
      (tableArgs env baseOid maxRepetitions).table = ∅ ∧
      (tableArgs env baseOid maxRepetitions).repeatCnt = 0 := by
  unfold tableArgs
  split
  · exact ⟨rfl, rfl, rfl⟩
  · split
    · exact ⟨rfl, rfl, rfl⟩
    · split <;> exact ⟨rfl, rfl, rfl⟩

/-- **A table has only what an agent has said**, under the base. Whatever the agent answers, each
entry of a table that is returned is a binding of one of its responses, its name is under the base,
and the table is not empty. -/
theorem getTable_sound {s : Session} {baseOid : Str} {maxRepetitions : Option Nat} {n : Nat}
    {table : Hash Str Scalar} (h : getTable s baseOid maxRepetitions n = some (.ok table)) :
    table.keys ≠ [] ∧ ∀ name v, table.lookup name = some v → oidBaseMatch baseOid name = true ∧
      ∃ k pdu vb, (s.respond k pdu).result = .ok vb ∧ vb.list.lookup name = some v ∧
        vb.types.lookup name ≠ some .endOfMibView := by
  rw [getTable] at h
  split at h
  · cases h
  · split at h
    · cases h
    · obtain ⟨hbase, hempty, -⟩ := tableArgs_start s.env baseOid maxRepetitions
      obtain ⟨argv, hargv, rfl, hne⟩ := tableLoop_induction (P := FromResponses s baseOid)
        (fun _ _ _ _ _ vb hvb hscan hP => hP.scan hvb hscan) h
        ⟨hbase, fun name v hv => by rw [hempty] at hv; cases hv⟩
      exact ⟨hne, hargv.rows⟩

/-- The identifiers of requests that are counted. -/
def counted (k : Nat) : Int := (k % 2 ^ 31 : Nat)

theorem counted_nonneg (k : Nat) : 0 ≤ counted k := Int.natCast_nonneg _

theorem counted_lt (k : Nat) : counted k < 2 ^ 31 := by
  rw [counted]
  omega

/-- A session of SNMPv1 with an agent whose answers are known beforehand. -/
def scripted (answers : Nat → List (Str × Asn1Type × Scalar)) : Session where
  env := newMessage SNMP_VERSION_1 1472
  requestId := counted
  respond := fun k _ => ⟨0, 0, .ok (.pushAll (answers k) .empty)⟩
  maxMsgSize_le := by decide
  requestId_nonneg := counted_nonneg
  requestId_lt := counted_lt

/-- `ifDescr`, and two of its rows. -/
def ifDescr : Str := "1.3.6.1.2.1.2.2.1.2".toList

def ifDescr1 : Str × Asn1Type × Scalar :=
  ("1.3.6.1.2.1.2.2.1.2.1".toList, .octetString, .str "lo".toList)

def ifType1 : Str × Asn1Type × Scalar := ("1.3.6.1.2.1.2.2.1.3.1".toList, .integer, .num 24)

theorem getTable_sound_local : ∃ table,
    getTable (scripted fun k => if k = 0 then [ifDescr1] else [ifType1]) ifDescr none 2
      = some (.ok table) ∧
    ∀ name v, table.lookup name = some v → oidBaseMatch ifDescr name = true := by
  have hrun : ((getTable (scripted fun k => if k = 0 then [ifDescr1] else [ifType1]) ifDescr none 2)
      |>.any fun r => r.toOption.isSome) = true := by
    decide +kernel
  obtain ⟨r, hr, htable⟩ := (Option.any_eq_true _ _).mp hrun
  cases r with
  | error e => cases htable
  | ok table => exact ⟨table, hr, fun name v hv => ((getTable_sound hr).2 name v hv).1⟩

/-- A table whose names come from a list. -/
structure Bounded (names : List Str) (base : Str) (maxReps : Nat) (argv : TableArgs) : Prop where
  baseOid : argv.baseOid = base
  limit : argv.maxReps = maxReps
  keys : argv.table.keys ⊆ names
  repeatCnt : argv.repeatCnt ≤ maxReps

theorem Bounded.progress_le {names : List Str} {base : Str} {maxReps : Nat} {argv : TableArgs}
    (h : Bounded names base maxReps argv) : argv.progress ≤ names.length + maxReps := by
  have hle := (List.subperm_of_subset argv.table.keys_nodup h.keys).length_le
  have hcnt := h.repeatCnt
  simp only [TableArgs.progress]
  omega

theorem Bounded.scan {names : List Str} {base : Str} {maxReps : Nat} {vb : VarBinds Scalar}
    (hvb : ∀ n ∈ vb.names, oidBaseMatch base n = true → n ∈ names) {argv argv' : TableArgs}
    {next : Option Str} (hscan : scanNames vb vb.names argv none = some (argv', next))
    (h : Bounded names base maxReps argv) : Bounded names base maxReps argv' := by
  refine scanNames_induction (P := Bounded names base maxReps)
    (fun a name ha hname hmatch _ _ => ⟨ha.baseOid, ha.limit, fun k hk => ?_, ha.repeatCnt⟩)
    (fun a ha hcnt => ⟨ha.baseOid, ha.limit, ha.keys, ha.limit ▸ hcnt⟩) hscan h
  rcases (AList.mem_insert _).mp (AList.mem_keys.mpr hk) with rfl | hk
  · exact hvb k hname (ha.baseOid ▸ hmatch)
  · exact ha.keys (AList.mem_keys.mp hk)

/-- **Every table ends.** When the names of the responses under the base come from a list,
`get_table` is done after as many requests as there are names, repetitions that it bears, and one:
an agent cannot keep it with rows that go in a circle. -/
theorem getTable_ends {s : Session} {baseOid : Str} {maxRepetitions : Option Nat} {names : List Str}
    (h : ∀ k pdu vb, (s.respond k pdu).result = .ok vb →
      ∀ n ∈ vb.names, oidBaseMatch baseOid n = true → n ∈ names) {n : Nat}
    (hn : names.length + (tableArgs s.env baseOid maxRepetitions).maxReps + 1 ≤ n) :
    ∃ r, getTable s baseOid maxRepetitions n = some r := by
  have hloop : ∀ (n k : Nat) (argv : TableArgs) (oid : Str),
      Bounded names baseOid (tableArgs s.env baseOid maxRepetitions).maxReps argv →
      names.length + (tableArgs s.env baseOid maxRepetitions).maxReps + 1 ≤ n + argv.progress →
      ∃ r, tableLoop s n k argv oid = some r := by
    intro n
    induction n with
    | zero =>
        intro k argv oid hargv hle
        have hprogress := hargv.progress_le
        omega
    | succ n ih =>
        intro k argv oid hargv hle
        rw [tableLoop]
        split
        · exact ⟨_, rfl⟩
        · split
          · exact ⟨_, rfl⟩
          · rename_i hrequest
            obtain ⟨vb, hvb, hscan⟩ := getTableCb_request hrequest
            have hlt := progress_lt hscan
            exact ih _ _ _ (hargv.scan (h _ _ vb hvb) hscan) (by omega)
  rw [getTable]
  split
  · exact ⟨_, rfl⟩
  · split
    · exact ⟨_, rfl⟩
    · obtain ⟨hbase, hempty, hzero⟩ := tableArgs_start s.env baseOid maxRepetitions
      refine hloop n 0 _ baseOid ⟨hbase, rfl, ?_, by omega⟩ (by omega)
      rw [hempty]
      exact List.nil_subset _

/-- An agent that answers each request with one row. -/
theorem getTable_ends_local :
    ∃ r, getTable (scripted fun _ => [ifDescr1]) ifDescr none 7 = some r := by
  refine @getTable_ends (scripted fun _ => [ifDescr1]) ifDescr none [ifDescr1.1]
    (fun k pdu vb h n hn _ => ?_) 7 (by decide +kernel)
  obtain rfl := Except.ok.inj h
  exact hn

end SnmpCollector.NetSnmp
