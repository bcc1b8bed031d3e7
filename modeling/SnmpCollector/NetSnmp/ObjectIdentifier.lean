import SnmpCollector.NetSnmp.Message

set_option autoImplicit false

/-! # Object identifiers (`Net::SNMP::Message` and `Net::SNMP`)

The scripts write object identifiers in dotted notation, the wire has their sub-identifiers in
groups of seven bits, the first two in one number. `Oid` is an object identifier that can be sent;
`reads_objectIdentifier` says that it comes back from its encoding as the text it was written as.
`oidBaseMatch` compares two texts by their sub-identifiers.
-/

namespace SnmpCollector.NetSnmp

open Perl

/-! ## Dotted notation -/

/-- `$value=~/^\.?\d+(?:\.\d+)* *$/` -/
def isOidText (value : Str) : Bool :=
  let s := if value.head? = some '.' then value.tail else value
  let s := if s.getLast? = some '\n' then s.dropLast else s
  ((s.rdropWhile (· = ' ')).splitOn '.').all fun f => !f.isEmpty && f.all Char.isDigit

/-- A text as a sub-identifier. -/
def subid (f : Str) : Nat := (toInt f).toNat

/-- The sub-identifiers of a text, without the empty one of a leading dot. -/
def subids (value : Str) : List Nat :=
  let fs := split '.' value
  (if fs.headD [] = [] then fs.tail else fs).map subid

/-- `join '.', @oid` -/
def dotted (oid : List Nat) : Str := (['.'] : Str).intercalate (oid.map decimal)

/-! ## Prepare and process -/

def oidError (value msg : Str) : Str :=
  "The OBJECT IDENTIFIER value \"".toList ++ value ++ "\" ".toList ++ msg

/-- `_prepare_object_identifier` -/
def prepareObjectIdentifier (value : Str) : Except Str Octets :=
  if !isOidText value then .error (oidError value "is expected in dotted decimal notation".toList)
  else if (subids value).length > 128 then
    .error (oidError value "contains more than the maximum of 128 sub-identifiers allowed".toList)
  else if (subids value).any fun n => decide (n > 4294967295) then
    .error (oidError value
      "contains a sub-identifier which is out of range (0..4294967295)".toList)
  else
    -- the object identifier is filled up to two sub-identifiers
    let first := (subids value).getD 0 0
    let second := (subids value).getD 1 0
    if first > 2 then
      .error (oidError value
        "must begin with either 0 (ccitt), 1 (iso), or 2 (joint-iso-ccitt)".toList)
    else if first < 2 ∧ second ≥ 40 then
      .error ("The second sub-identifier in the OBJECT IDENTIFIER value \"".toList ++ value
        ++ "\" must be less than 40".toList)
    else if second ≥ 4294967295 - 80 then
      .error ("The second sub-identifier in the OBJECT IDENTIFIER value \"".toList ++ value
        ++ "\" must be less than 4294967215".toList)
    else
      prepareTypeLength .objectIdentifier
        (((second + first * 40) :: (subids value).drop 2).flatMap compressed)

/-- The first two sub-identifiers in the first number. -/
def splitFirst (n : Nat) : Nat × Nat :=
  if n = 0x2b then (1, 3)
  else if n < 40 then (0, n)
  else if n < 80 then (1, n - 40)
  else (2, n - 80)

/-- `_process_object_identifier` -/
def processObjectIdentifier : Process Scalar := do
  let length ← processLength
  if length < 1 then throw "The OBJECT IDENTIFIER length is equal to zero".toList
  else do
    let bs ← bufferGet length
    let env ← read
    match unpackCompressed bs 129 false 0 with
    | none =>
        throw ("The OBJECT IDENTIFIER contains a sub-identifier which is out of ".toList
          ++ "range (0..4294967295)".toList)
    | some ns =>
        if ns.any fun n => decide (n > 4294967295) then
          throw ("The OBJECT IDENTIFIER contains a sub-identifier which is out of ".toList
            ++ "range (0..4294967295)".toList)
        else if ns.length + 1 > 128 then
          throw ("The OBJECT IDENTIFIER contains more than the maximum of 128 ".toList
            ++ "sub-identifiers allowed".toList)
        else
          let first := splitFirst (ns.headD 0)
          let text := dotted (first.1 :: first.2 :: ns.tail)
          pure (.str (if env.leadingDot then '.' :: text else text))

/-- The first two sub-identifiers come back. -/
theorem splitFirst_eq {first second : Nat} (hf : first ≤ 2) (hs : first < 2 → second < 40) :
    splitFirst (second + first * 40) = (first, second) := by
  interval_cases first
  · have h40 : second < 40 := hs (by omega)
    rw [splitFirst, if_neg (by omega), if_pos (by omega)]
    simp
  · have h40 : second < 40 := hs (by omega)
    by_cases h3 : second = 3
    · subst h3
      rfl
    · rw [splitFirst, if_neg (by omega), if_neg (by omega), if_pos (by omega)]
      simp
  · rw [splitFirst, if_neg (by omega), if_neg (by omega), if_neg (by omega)]
    simp

/-! ## Texts of object identifiers -/

/-- The blanks that make a name unique. -/
def blanks (k : Nat) : Str := List.replicate k ' '

theorem isSpace_of_mem_blanks {k : Nat} : ∀ c ∈ blanks k, isSpace c = true := by
  intro c hc
  rw [(List.mem_replicate.mp hc).2]
  rfl

theorem dotted_cons_append (n : Nat) {ns : List Nat} (h : ns ≠ []) :
    dotted (n :: ns) = decimal n ++ '.' :: dotted ns := by
  obtain ⟨m, ns, rfl⟩ := List.exists_cons_of_ne_nil h
  simp [dotted, List.intercalate]

/-- The fields of a text: its numbers, the last one with the blanks. -/
theorem splitOn_dotted (ns : List Nat) (n k : Nat) :
    (dotted (ns ++ [n]) ++ blanks k).splitOn '.' = ns.map decimal ++ [decimal n ++ blanks k] := by
  induction ns with
  | nil =>
      have hdot : '.' ∉ decimal n ++ blanks k := by
        intro h
        rcases List.mem_append.mp h with h | h
        · exact not_mem_decimal (by decide) n h
        · cases (List.mem_replicate.mp h).2
      have hone : dotted ([] ++ [n]) = decimal n := by simp [dotted, List.intercalate]
      rw [hone, List.splitOn_eq_singleton hdot]
      rfl
  | cons m ns ih =>
      rw [List.cons_append, dotted_cons_append m (by simp), List.append_assoc, List.cons_append,
        List.splitOn_append_cons_self_of_not_mem (not_mem_decimal (by decide) m), ih]
      rfl

/-- A text of an object identifier: a leading dot, the numbers, blanks at the end. -/
def oidText (dot : Bool) (ns : List Nat) (k : Nat) : Str :=
  (if dot then ['.'] else []) ++ (dotted ns ++ blanks k)

theorem head?_dotted {ns : List Nat} (h : ns ≠ []) (k : Nat) :
    ∃ c s, dotted ns ++ blanks k = c :: s ∧ c.isDigit = true := by
  obtain ⟨n, ns, rfl⟩ := List.exists_cons_of_ne_nil h
  obtain ⟨c, s, hs⟩ := List.exists_cons_of_ne_nil (decimal_ne_nil n)
  have hc : c.isDigit = true := isDigit_of_mem_decimal (by rw [hs]; simp)
  by_cases hns : ns = []
  · subst hns
    exact ⟨c, s ++ blanks k, by simp [dotted, List.intercalate, hs], hc⟩
  · exact ⟨c, s ++ '.' :: dotted ns ++ blanks k, by rw [dotted_cons_append n hns, hs]; simp, hc⟩

theorem mem_dotted {ns : List Nat} {c : Char} (h : c ∈ dotted ns) : c = '.' ∨ c.isDigit = true := by
  induction ns with
  | nil => simp [dotted, List.intercalate] at h
  | cons n ns ih =>
      by_cases hns : ns = []
      · subst hns
        simp only [dotted, List.intercalate, List.map_cons, List.map_nil,
          List.intersperse_singleton, List.flatten_cons, List.flatten_nil, List.append_nil] at h
        exact Or.inr (isDigit_of_mem_decimal h)
      · rw [dotted_cons_append n hns] at h
        rcases List.mem_append.mp h with h | h
        · exact Or.inr (isDigit_of_mem_decimal h)
        · rcases List.mem_cons.mp h with h | h
          · exact Or.inl h
          · exact ih h

/-- The texts of object identifiers have the form that the class asks for. -/
theorem isOidText_oidText (dot : Bool) {ns : List Nat} (h : ns ≠ []) (k : Nat) :
    isOidText (oidText dot ns k) = true := by
  obtain ⟨c, s, hs, hc⟩ := head?_dotted h k
  have hdigit : c ≠ '.' := by
    rintro rfl
    cases hc
  have hstrip : (if (oidText dot ns k).head? = some '.' then (oidText dot ns k).tail
      else oidText dot ns k) = dotted ns ++ blanks k := by
    cases dot
    · simp [oidText, hs, hdigit]
    · simp [oidText]
  have hlast : (dotted ns ++ blanks k).getLast? ≠ some '\n' := by
    intro hnl
    rcases List.mem_append.mp (List.mem_of_getLast? hnl) with hmem | hmem
    · rcases mem_dotted hmem with hmem | hmem <;> cases hmem
    · cases (List.mem_replicate.mp hmem).2
  have hblank : ∀ c ∈ dotted ns, c ≠ ' ' := by
    rintro c hmem rfl
    rcases mem_dotted hmem with hmem | hmem <;> cases hmem
  have hdrop : (dotted ns ++ blanks k).rdropWhile (· = ' ') = dotted ns := by
    have hpos : ∀ c ∈ blanks k, decide (c = ' ') = true := fun c hc => by
      simp [(List.mem_replicate.mp hc).2]
    have hself : (dotted ns).reverse.dropWhile (· = ' ') = (dotted ns).reverse := by
      refine List.dropWhile_eq_self_iff.mpr fun hlen => ?_
      have hmem := List.getElem_mem hlen
      simpa using hblank _ (List.mem_reverse.mp hmem)
    rw [List.rdropWhile, List.reverse_append, List.dropWhile_append_of_pos
      (fun c hc => hpos c (List.mem_reverse.mp hc)), hself, List.reverse_reverse]
  obtain ⟨ms, m, rfl⟩ := (List.eq_nil_or_concat' ns).resolve_left h
  have hsplit := splitOn_dotted ms m 0
  simp only [blanks, List.replicate_zero, List.append_nil] at hsplit
  simp only [isOidText, hstrip, if_neg hlast, hdrop, hsplit]
  refine List.all_eq_true.mpr fun f hf => ?_
  have hdec : ∃ n, f = decimal n := by
    rcases List.mem_append.mp hf with hf | hf
    · obtain ⟨n, -, rfl⟩ := List.mem_map.mp hf
      exact ⟨n, rfl⟩
    · exact ⟨m, List.mem_singleton.mp hf⟩
  obtain ⟨n, rfl⟩ := hdec
  simp only [Bool.and_eq_true, Bool.not_eq_true', List.isEmpty_eq_false_iff, List.all_eq_true]
  exact ⟨decimal_ne_nil n, fun c hc => isDigit_of_mem_decimal hc⟩

theorem subid_decimal (n k : Nat) : subid (decimal n ++ blanks k) = n := by
  rw [subid, toInt, numify_decimal_append n isSpace_of_mem_blanks, truncate, if_pos (by positivity)]
  simp

/-- The fields of a text of numbers: each stands for its number, and none is empty. -/
theorem split_dotted {ns : List Nat} (h : ns ≠ []) (k : Nat) :
    ∃ f fs, split '.' (dotted ns ++ blanks k) = f :: fs ∧ f ≠ [] ∧ (f :: fs).map subid = ns ∧
      split '.' ('.' :: (dotted ns ++ blanks k)) = [] :: f :: fs := by
  obtain ⟨ms, m, rfl⟩ := (List.eq_nil_or_concat' ns).resolve_left h
  have hsplit := splitOn_dotted ms m k
  have hlast : (decimal m ++ blanks k).isEmpty = false := by
    simp [List.isEmpty_eq_false_iff, decimal_ne_nil]
  have hmap : (ms.map decimal ++ [decimal m ++ blanks k]).map subid = ms ++ [m] := by
    have hid : ∀ n ∈ ms, (subid ∘ decimal) n = id n := fun n _ => by
      simpa [blanks] using subid_decimal n 0
    rw [List.map_append, List.map_map, List.map_congr_left hid, List.map_id, List.map_singleton,
      subid_decimal]
  have hfields : split '.' (dotted (ms ++ [m]) ++ blanks k)
      = ms.map decimal ++ [decimal m ++ blanks k] := by
    rw [split, hsplit, List.rdropWhile_concat_neg _ _ _ (by simp [hlast])]
  have hdot : split '.' ('.' :: (dotted (ms ++ [m]) ++ blanks k))
      = [] :: (ms.map decimal ++ [decimal m ++ blanks k]) := by
    have hcons := @splitOn_delimited_append _ _ '.' [[]] (by simp) (dotted (ms ++ [m]) ++ blanks k)
    rw [delimited_cons, delimited_nil, List.nil_append, List.cons_append, List.nil_append] at hcons
    rw [split, hcons, hsplit, List.cons_append, List.nil_append, ← List.cons_append,
      List.rdropWhile_concat_neg _ _ _ (by simp [hlast])]
  rw [hfields, hdot]
  cases ms with
  | nil =>
      refine ⟨decimal m ++ blanks k, [], rfl, ?_, hmap, rfl⟩
      simpa using fun hnil => absurd hnil (decimal_ne_nil m)
  | cons n ms => exact ⟨decimal n, _, rfl, decimal_ne_nil n, hmap, rfl⟩

/-- **The numbers of a text come back.** -/
theorem subids_oidText (dot : Bool) {ns : List Nat} (h : ns ≠ []) (k : Nat) :
    subids (oidText dot ns k) = ns := by
  obtain ⟨f, fs, hfields, hf, hmap, hdot⟩ := split_dotted h k
  cases dot
  · simp only [subids, oidText, Bool.false_eq_true, if_false, List.nil_append, hfields,
      List.headD_cons, if_neg hf, hmap]
  · simp only [subids, oidText, if_true, List.singleton_append, hdot, List.headD_cons,
      List.tail_cons, hmap]

theorem dotted_injective {ms ns : List Nat} (hm : ms ≠ []) (hn : ns ≠ [])
    (h : dotted ms = dotted ns) : ms = ns := by
  rw [← subids_oidText false hm 0, ← subids_oidText false hn 0, oidText, oidText, h]

theorem dotted_concat {ns : List Nat} (h : ns ≠ []) (n : Nat) :
    dotted (ns ++ [n]) = dotted ns ++ '.' :: decimal n := by
  induction ns with
  | nil => exact absurd rfl h
  | cons m ns ih =>
      rw [List.cons_append, dotted_cons_append m (by simp)]
      by_cases hns : ns = []
      · subst hns
        simp [dotted, List.intercalate]
      · rw [ih hns, dotted_cons_append m hns, List.append_assoc, List.cons_append]

/-! ## Object identifiers that can be sent -/

/-- An object identifier within the limits of the protocol. -/
structure Oid where
  first : Nat
  second : Nat
  tail : List Nat
  first_le : first ≤ 2
  second_lt : second < 4294967295 - 80
  second_lt_40 : first < 2 → second < 40
  tail_lt : ∀ n ∈ tail, n < 2 ^ 32
  length_le : tail.length ≤ 126

namespace Oid

/-- An object identifier under `1.3`. -/
def org (tail : List Nat) (h : tail.length ≤ 126 ∧ ∀ n ∈ tail, n < 2 ^ 32) : Oid where
  first := 1
  second := 3
  tail := tail
  first_le := by decide
  second_lt := by decide
  second_lt_40 := by decide
  tail_lt := h.2
  length_le := h.1

variable (o : Oid)

def subs : List Nat := o.first :: o.second :: o.tail

/-- The name of the object, as the class writes it. -/
def text : Str := dotted o.subs

/-- The numbers that are sent. -/
def wire : List Nat := (o.second + o.first * 40) :: o.tail

/-- The contents of the encoding. -/
def contents : Octets := o.wire.flatMap compressed

theorem subs_ne_nil : o.subs ≠ [] := List.cons_ne_nil _ _

theorem subs_lt : ∀ n ∈ o.subs, n < 2 ^ 32 := by
  have hf := o.first_le
  have hs := o.second_lt
  intro n hn
  simp only [subs, List.mem_cons] at hn
  rcases hn with hn | hn | hn
  · omega
  · omega
  · exact o.tail_lt n hn

theorem wire_lt : ∀ n ∈ o.wire, n < 2 ^ 32 := by
  have hf := o.first_le
  have hs := o.second_lt
  intro n hn
  rcases List.mem_cons.mp hn with hn | hn
  · omega
  · exact o.tail_lt n hn

theorem length_contents_le : o.contents.length ≤ 635 := by
  have hstep : ∀ ns : List Nat, (∀ n ∈ ns, n < 2 ^ 32) →
      (ns.flatMap compressed).length ≤ 5 * ns.length := by
    intro ns h
    induction ns with
    | nil => simp
    | cons n ns ih =>
        have hn := @length_compressed_le n 4 (Nat.lt_trans (h n (by simp)) (by norm_num))
        have htail := ih fun m hm => h m (by simp [hm])
        rw [List.flatMap_cons, List.length_append, List.length_cons]
        omega
  have hlen := hstep o.wire o.wire_lt
  have htail := o.length_le
  simp only [wire, List.length_cons] at hlen
  rw [contents, wire]
  omega

theorem contents_ne_nil : o.contents ≠ [] := by
  rw [contents, wire, List.flatMap_cons]
  exact List.append_ne_nil_of_left_ne_nil (compressed_ne_nil _) _

end Oid

/-- The numbers of an object identifier that can be sent, with dots between them, are prepared as
its contents. -/
theorem prepareObjectIdentifier_eq (o : Oid) (dot : Bool) (k : Nat) :
    prepareObjectIdentifier (oidText dot o.subs k)
      = .ok (Asn1Type.objectIdentifier.code :: (lengthOctets o.contents.length ++ o.contents)) := by
  have hne := o.subs_ne_nil
  have hlen := o.length_le
  have hany : (o.subs.any fun n => decide (n > 4294967295)) = false := by
    refine List.any_eq_false.mpr fun n hn => ?_
    have hlt := o.subs_lt n hn
    simp only [decide_eq_true_eq]
    omega
  have hfirst := o.first_le
  have hsecond := o.second_lt
  have h40 := o.second_lt_40
  have hsubs : o.subs.length ≤ 128 := by
    rw [Oid.subs, List.length_cons, List.length_cons]
    omega
  simp only [prepareObjectIdentifier, isOidText_oidText dot hne, subids_oidText dot hne, hany,
    Bool.not_true, Bool.false_eq_true, if_false]
  rw [if_neg (by omega)]
  show (if o.first > 2 then _ else if o.first < 2 ∧ o.second ≥ 40 then _
    else if o.second ≥ 4294967295 - 80 then _
    else prepareTypeLength .objectIdentifier o.contents) = _
  rw [if_neg (by omega), if_neg (by omega), if_neg (by omega),
    prepareTypeLength_eq (Nat.le_trans o.length_contents_le (by decide))]

variable {env : Env}

/-- The text of an object identifier that has been read. -/
def Oid.shown (o : Oid) (env : Env) : Str := oidText env.leadingDot o.subs 0

/-- **An object identifier comes back** as the text of its numbers. -/
theorem reads_objectIdentifier (o : Oid) :
    Reads env processObjectIdentifier (lengthOctets o.contents.length ++ o.contents)
      (.str (o.shown env)) := by
  have hlen := o.length_le
  have hpos := List.length_pos_iff.mpr o.contents_ne_nil
  have hwire : o.wire.length ≤ 127 := by
    rw [Oid.wire, List.length_cons]
    omega
  have hunpack : unpackCompressed o.contents 129 false 0 = some o.wire :=
    unpackCompressed_flatMap (by omega)
  have hany : (o.wire.any fun n => decide (n > 4294967295)) = false := by
    refine List.any_eq_false.mpr fun n hn => ?_
    have hlt := o.wire_lt n hn
    simp only [decide_eq_true_eq]
    omega
  have hsplit := splitFirst_eq o.first_le o.second_lt_40
  refine Reads.bind (reads_length (Nat.le_trans o.length_contents_le (by decide))) ?_
  rw [if_neg (by omega)]
  refine Reads.bind_nil (reads_bufferGet o.contents) ?_
  refine Reads.nil_bind reads_env ?_
  simp only [hunpack, hany, Bool.false_eq_true, if_false]
  rw [if_neg (by omega)]
  have hfirst : o.first :: o.second :: o.tail
      = (splitFirst (o.wire.headD 0)).1 :: (splitFirst (o.wire.headD 0)).2 :: o.wire.tail := by
    rw [Oid.wire, List.headD_cons, hsplit, List.tail_cons]
  rw [← hfirst]
  have hshown : (if env.leadingDot then '.' :: dotted o.subs else dotted o.subs) = o.shown env := by
    rw [Oid.shown, oidText, blanks, List.replicate_zero, List.append_nil]
    cases env.leadingDot <;> rfl
  rw [← hshown]
  exact Reads.pure _

/-! ## Comparison -/

/-- `pack 'N*', split m/\./, $oid`, the leading dot taken away first -/
def packN (oid : Str) : Octets :=
  (split '.' (if oid.head? = some '.' then oid.tail else oid)).flatMap fun f => octets 4 (subid f)

/-- `oid_base_match` -/
def oidBaseMatch (base oid : Str) : Bool := (packN base).isPrefixOf (packN oid)

theorem packN_oidText (dot : Bool) {ns : List Nat} (h : ns ≠ []) (k : Nat) :
    packN (oidText dot ns k) = ns.flatMap (octets 4) := by
  obtain ⟨c, s, hs, hc⟩ := head?_dotted h k
  have hdigit : c ≠ '.' := by
    rintro rfl
    cases hc
  have hstrip : (if (oidText dot ns k).head? = some '.' then (oidText dot ns k).tail
      else oidText dot ns k) = dotted ns ++ blanks k := by
    cases dot
    · simp [oidText, hs, hdigit]
    · simp [oidText]
  obtain ⟨f, fs, hfields, -, hmap, -⟩ := split_dotted h k
  rw [packN, hstrip, ← List.flatMap_map, hfields, hmap]

/-- **The comparison of texts is that of object identifiers**: the numbers of the one begin with
the numbers of the other. -/
theorem oidBaseMatch_oidText (dot dot' : Bool) {ms ns : List Nat} (hm : ms ≠ []) (hn : ns ≠ [])
    (hms : ∀ m ∈ ms, m < 2 ^ 32) (hns : ∀ n ∈ ns, n < 2 ^ 32) (j k : Nat) :
    oidBaseMatch (oidText dot ms j) (oidText dot' ns k) = true ↔ ms <+: ns := by
  rw [oidBaseMatch, packN_oidText dot hm, packN_oidText dot' hn, List.isPrefixOf_iff_prefix]
  exact flatMap_octets_prefix (by decide) (by simpa using hms) (by simpa using hns)

end SnmpCollector.NetSnmp
