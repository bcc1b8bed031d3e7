import SnmpCollector.Basic

set_option autoImplicit false

/-! # Collecting the interface descriptions (`walk/00_coleta_walk_ifdescr.sh`)

The script reads the hosts file into a variable and loops over its *words*: the variable is
not quoted, so the shell splits it on blanks and newlines. For each word it takes the first
two `;`-separated fields as host and address, removes every log whose name contains the
host, and starts an `snmpwalk` whose output goes to the log `host-address.txt`.

A line `host;ip;` without blanks is one word. A line with blanks around a field is several
words, and a word that begins with `;` has an empty host field, which occurs in every name.
The main result, `coleta_logs_iff`, says for which hosts files all logs are there at the end.
-/

namespace SnmpCollector.Walk

open Perl

/-! ## The script -/

/-- The characters on which an unquoted variable is split. -/
def isBlank (c : Char) : Bool := c == ' ' || c == '\t' || c == '\n'

/-- The words of an unquoted variable. -/
def words (s : Str) : List Str := (s.splitOnP isBlank).filter (fun w => !w.isEmpty)

/-- `cut -d ";" -f n`: a line without the delimiter is printed whole. -/
def cut (n : Nat) (x : Str) : Str := if ';' ∈ x then field (x.splitOn ';') (n - 1) else x

def host (x : Str) : Str := cut 1 x

def ipHost (x : Str) : Str := cut 2 x

/-- `$host-$ip_host.txt` -/
def logName (host ipHost : Str) : Str := host ++ '-' :: (ipHost ++ ".txt".toList)

/-- `rm /hosts_walk/log/*$host*` -/
def rmLog (host : Str) (log : Dir) : Dir := filterKeys (fun nome => !contem host nome) log

section Loop

-- what `snmpwalk` prints for an address
variable (snmpwalk : Str → Str)

/-- One round of the loop: `x` is the current word. -/
def coletaWord (log : Dir) (x : Str) : Dir :=
  (rmLog (host x) log).insert (logName (host x) (ipHost x)) (snmpwalk (ipHost x))

/-- `for x in $ip; do ... done` on the contents of the hosts file. -/
def coleta (hosts : Str) (log : Dir) : Dir := (words hosts).foldl (coletaWord snmpwalk) log

/-! ## What is left after the loop -/

/-- The name of the log that the word `x` writes. -/
def nomeGravado (x : Str) : Str := logName (host x) (ipHost x)

theorem host_infix_nomeGravado (x : Str) : host x <:+: nomeGravado x :=
  (List.prefix_append _ _).isInfix

/-- After one word a log is there if the word wrote it, or if it was there and its name does
not contain the host of the word. -/
theorem mem_coletaWord (log : Dir) (x nome : Str) :
    nome ∈ coletaWord snmpwalk log x ↔ nomeGravado x = nome ∨ (nome ∈ log ∧ ¬ host x <:+: nome) := by
  rw [coletaWord, AList.mem_insert, ← AList.lookup_isSome, rmLog, lookup_filterKeys,
    eq_comm (a := nome), nomeGravado]
  by_cases hi : host x <:+: nome
  · simp [contem, hi]
  · simp [contem, hi, AList.lookup_isSome]

/-- **What survives a sequence of words.** Only the last word whose host occurs in a name
counts: the log is there if that word writes this very name. -/
theorem mem_foldl_coletaWord (ws : List Str) (log : Dir) (nome : Str) :
    nome ∈ ws.foldl (coletaWord snmpwalk) log ↔
      match lastSuch (fun x => contem (host x) nome) ws with
      | some x => nomeGravado x = nome
      | none => nome ∈ log := by
  induction ws using List.reverseRecOn with
  | nil => rfl
  | append_singleton ws x ih =>
      rw [List.foldl_append, List.foldl_cons, List.foldl_nil, mem_coletaWord, ih, lastSuch_concat]
      by_cases hx : host x <:+: nome
      · simp [contem, hx]
      · -- a word whose host does not occur in the name neither writes nor removes it
        have hne : nomeGravado x ≠ nome := by
          rintro rfl
          exact hx (host_infix_nomeGravado x)
        simp [contem, hx, hne]

end Loop

/-! ## Hosts files -/

/-- A line `host;ip;` of the hosts file, with blanks around its fields. -/
structure HostLine where
  host : Str
  ip : Str
  antesHost : Str
  depoisHost : Str
  antesIp : Str
  depoisIp : Str
  fim : Str
  host_ne_nil : host ≠ []
  ip_ne_nil : ip ≠ []
  host_word : ∀ c ∈ host, isBlank c = false ∧ c ≠ ';'
  ip_word : ∀ c ∈ ip, isBlank c = false ∧ c ≠ ';'
  blanks : ∀ b ∈ [antesHost, depoisHost, antesIp, depoisIp, fim], ∀ c ∈ b, c = ' ' ∨ c = '\t'

/-- The line as it stands in the file. -/
def HostLine.text (l : HostLine) : Str :=
  l.antesHost ++ (l.host ++ (l.depoisHost ++ ';' ::
    (l.antesIp ++ (l.ip ++ (l.depoisIp ++ ';' :: (l.fim ++ ['\n']))))))

/-- The log the line asks for. -/
def HostLine.log (l : HostLine) : Str := logName l.host l.ip

/-- A hosts file made of such lines. -/
def hostsFile (ls : List HostLine) : Str := ls.flatMap HostLine.text

/-! ### Words of a hosts file -/

theorem words_append_cons {c : Char} (hc : isBlank c = true) (a b : Str) :
    words (a ++ c :: b) = words a ++ words b := by
  rw [words, List.splitOnP_append_cons _ _ hc, List.filter_append]
  rfl

theorem words_nil : words [] = [] := by simp [words]

theorem words_of_word {w : Str} (hne : w ≠ []) (hw : ∀ c ∈ w, isBlank c = false) :
    words w = [w] := by
  rw [words, List.splitOnP_eq_singleton hw]
  simp [hne]

theorem words_blanks_append {b : Str} (hb : ∀ c ∈ b, isBlank c = true) (s : Str) :
    words (b ++ s) = words s := by
  induction b with
  | nil => rfl
  | cons c b ih =>
      have h := words_append_cons (hb c (by simp)) [] (b ++ s)
      rw [List.nil_append, words_nil, List.nil_append] at h
      rw [List.cons_append, h, ih (fun d hd => hb d (by simp [hd]))]

/-- A word at the front of a text goes on to the next blank. -/
theorem word_mem_words {w : Str} (hne : w ≠ []) (hw : ∀ c ∈ w, isBlank c = false) (s : Str) :
    w ++ s.takeWhile (fun c => !isBlank c) ∈ words (w ++ s) := by
  induction s generalizing w with
  | nil => simp [words_of_word hne hw]
  | cons c s ih =>
      by_cases hc : isBlank c = true
      · rw [words_append_cons hc, words_of_word hne hw]
        simp [hc]
      · have hcf : isBlank c = false := by simpa using hc
        have h := ih (w := w ++ [c]) (by simp) (by
          intro d hd
          rcases List.mem_append.mp hd with hd | hd
          · exact hw d hd
          · rw [List.mem_singleton.mp hd]; exact hcf)
        simpa [hcf] using h

/-- Every line of a hosts file has a word whose host field is the host of the line. -/
theorem exists_word (l : HostLine) : ∃ x ∈ words l.text, host x = l.host := by
  have hb : ∀ c ∈ l.antesHost, isBlank c = true := by
    intro c hc
    rcases l.blanks _ (by simp) c hc with rfl | rfl <;> rfl
  have hsemi : ';' ∉ l.host := fun h => (l.host_word _ h).2 rfl
  rw [HostLine.text, words_blanks_append hb]
  refine ⟨_, word_mem_words l.host_ne_nil (fun c hc => (l.host_word c hc).1) _, ?_⟩
  cases hd : l.depoisHost with
  | nil =>
      -- the word goes on with `;`, and `cut` stops there
      simp [host, cut, isBlank, field, List.splitOn_append_cons_self_of_not_mem hsemi]
  | cons c b =>
      -- the word ends with the host; `cut` prints a line without `;` whole
      have hc : isBlank c = true := by
        rcases l.blanks l.depoisHost (by simp) c (by rw [hd]; simp) with rfl | rfl <;> rfl
      simp [host, cut, hc, hsemi]

theorem words_hostsFile (ls : List HostLine) :
    words (hostsFile ls) = ls.flatMap (fun l => words l.text) := by
  induction ls with
  | nil => exact words_nil
  | cons l ls ih =>
      have htext : ∃ t, l.text = t ++ ['\n'] :=
        ⟨l.antesHost ++ (l.host ++ (l.depoisHost ++ ';' ::
          (l.antesIp ++ (l.ip ++ (l.depoisIp ++ ';' :: l.fim))))), by simp [HostLine.text]⟩
      obtain ⟨t, ht⟩ := htext
      have hnl : isBlank '\n' = true := rfl
      have hline : words l.text = words t := by
        rw [ht, words_append_cons hnl, words_nil, List.append_nil]
      have hfile : hostsFile (l :: ls) = t ++ '\n' :: hostsFile ls := by
        simp [hostsFile, ht]
      rw [hfile, words_append_cons hnl, ih, List.flatMap_cons, hline]

/-! ## Which hosts files keep all their logs -/

/-- The last word of the file whose host field occurs in the name of the log of `l` is a
word that writes this log. -/
def UltimaPalavraGrava (ls : List HostLine) (l : HostLine) : Prop :=
  ∃ x, lastSuch (fun x => contem (host x) l.log) (words (hostsFile ls)) = some x ∧
    nomeGravado x = l.log

/-- **Which logs survive a run.** After the loop all logs of a hosts file are there exactly
when, for each line, the last word whose host field occurs in the name of its log writes
this log. -/
theorem coleta_logs_iff (snmpwalk : Str → Str) (ls : List HostLine) (log : Dir) :
    (∀ l ∈ ls, l.log ∈ coleta snmpwalk (hostsFile ls) log) ↔ ∀ l ∈ ls, UltimaPalavraGrava ls l := by
  refine forall₂_congr fun l hl => ?_
  obtain ⟨x, hx, hhost⟩ := exists_word l
  have hmem : x ∈ words (hostsFile ls) := by
    rw [words_hostsFile]
    exact List.mem_flatMap.mpr ⟨l, hl, hx⟩
  -- the line's own first word removes what an earlier run left under this name
  have hocc : contem (host x) l.log = true := by
    rw [contem_iff, hhost]
    exact (List.prefix_append _ _).isInfix
  obtain ⟨y, hy⟩ := lastSuch_isSome (p := fun x => contem (host x) l.log) hmem hocc
  rw [coleta, mem_foldl_coletaWord, UltimaPalavraGrava, hy]
  simp

/-- A line without blanks inside is one word, which writes the log of the line. -/
theorem words_text_of_no_blanks {l : HostLine} (h1 : l.depoisHost = []) (h2 : l.antesIp = [])
    (h3 : l.depoisIp = []) : ∃ x, words l.text = [x] ∧ host x = l.host ∧ nomeGravado x = l.log := by
  have hblank : ∀ b ∈ [l.antesHost, l.depoisHost, l.antesIp, l.depoisIp, l.fim],
      ∀ c ∈ b, isBlank c = true := by
    intro b hb c hc
    rcases l.blanks b hb c hc with rfl | rfl <;> rfl
  have hfs : ∀ f ∈ [l.host, l.ip], ';' ∉ f := by
    intro f hf h
    simp only [List.mem_cons, List.not_mem_nil, or_false] at hf
    rcases hf with rfl | rfl
    · exact (l.host_word _ h).2 rfl
    · exact (l.ip_word _ h).2 rfl
  have htext : l.text = l.antesHost ++ (delimited ';' [l.host, l.ip] ++ (l.fim ++ ['\n'])) := by
    simp [HostLine.text, h1, h2, h3]
  have hword : ∀ c ∈ delimited ';' [l.host, l.ip], isBlank c = false := by
    intro c hc
    rcases mem_delimited hc with rfl | ⟨f, hf, hcf⟩
    · rfl
    · simp only [List.mem_cons, List.not_mem_nil, or_false] at hf
      rcases hf with rfl | rfl
      · exact (l.host_word c hcf).1
      · exact (l.ip_word c hcf).1
  have hfim : words (l.fim ++ ['\n']) = [] := by
    rw [words_append_cons rfl, words_nil, List.append_nil]
    simpa [words_nil] using words_blanks_append (hblank l.fim (by simp)) []
  refine ⟨delimited ';' [l.host, l.ip], ?_, ?_, ?_⟩
  · rw [htext, words_blanks_append (hblank l.antesHost (by simp))]
    cases hf : l.fim with
    | nil => rw [List.nil_append, words_append_cons rfl, words_of_word (by simp) hword, words_nil]; rfl
    | cons c b =>
        rw [hf] at hfim
        have hc : isBlank c = true := hblank l.fim (by simp) c (by rw [hf]; simp)
        rw [List.cons_append, words_append_cons hc, words_of_word (by simp) hword]
        rw [List.cons_append] at hfim
        have hrest := words_append_cons hc [] (b ++ ['\n'])
        rw [List.nil_append, hfim, words_nil, List.nil_append] at hrest
        rw [← hrest]; rfl
  · have hsplit := splitOn_delimited_append hfs []
    rw [List.append_nil] at hsplit
    rw [host, cut, if_pos (by simp), hsplit]
    rfl
  · have hsplit := splitOn_delimited_append hfs []
    rw [List.append_nil] at hsplit
    rw [nomeGravado, host, ipHost, cut, cut, if_pos (by simp), if_pos (by simp), hsplit]
    rfl

/-- A list without blanks inside its lines keeps all its logs if no host occurs in the log
name of an earlier line. -/
theorem coleta_logs_of_no_blanks (snmpwalk : Str → Str) (ls : List HostLine) (log : Dir)
    (hclean : ∀ l ∈ ls, l.depoisHost = [] ∧ l.antesIp = [] ∧ l.depoisIp = [])
    (hlater : ls.Pairwise (fun l l' => ¬ l'.host <:+: l.log)) :
    ∀ l ∈ ls, l.log ∈ coleta snmpwalk (hostsFile ls) log := by
  rw [coleta_logs_iff]
  intro l hl
  obtain ⟨pre, post, rfl⟩ := List.append_of_mem hl
  obtain ⟨x, hx, hhost, hgrava⟩ := words_text_of_no_blanks (hclean l hl).1 (hclean l hl).2.1
    (hclean l hl).2.2
  refine ⟨x, ?_, hgrava⟩
  have hpost : lastSuch (fun x => contem (host x) l.log) (post.flatMap fun l => words l.text)
      = none := by
    rw [lastSuch_eq_none]
    intro y hy
    obtain ⟨l', hl', hy'⟩ := List.mem_flatMap.mp hy
    have hmem : l' ∈ pre ++ l :: post := by simp [hl']
    obtain ⟨x', hx', hhost', -⟩ := words_text_of_no_blanks (hclean l' hmem).1 (hclean l' hmem).2.1
      (hclean l' hmem).2.2
    rw [hx', List.mem_singleton] at hy'
    rw [hy', contem_iff, hhost']
    exact (List.pairwise_cons.mp (List.pairwise_append.mp hlater).2.1).1 l' hl'
  have hself : contem (host x) l.log = true := by
    rw [contem_iff, hhost]
    exact (List.prefix_append _ _).isInfix
  rw [words_hostsFile, List.flatMap_append, List.flatMap_cons, hx, lastSuch_append,
    lastSuch_append, hpost, Option.none_or]
  simp [lastSuch, hself]

/-- Two lines of the shipped list: the second has two blanks before its last `;`. -/
def mcjpa05 : HostLine where
  host := "mcjpa05.jpa.psys".toList
  ip := "10.32.67.6".toList
  antesHost := []
  depoisHost := []
  antesIp := []
  depoisIp := []
  fim := []
  host_ne_nil := by decide
  ip_ne_nil := by decide
  host_word := by simp [isBlank]
  ip_word := by simp [isBlank]
  blanks := by simp

@[inherit_doc mcjpa05]
def swcigs04 : HostLine where
  host := "swcigs04.igs.psys".toList
  ip := "10.34.17.155".toList
  antesHost := []
  depoisHost := []
  antesIp := []
  depoisIp := "  ".toList
  fim := []
  host_ne_nil := by decide
  ip_ne_nil := by decide
  host_word := by simp [isBlank]
  ip_word := by simp [isBlank]
  blanks := by simp

/-- The word `;` of the second line has an empty host field and removes every log. -/
theorem coleta_loses_logs : ¬ ∀ (snmpwalk : Str → Str) (ls : List HostLine) (log : Dir),
    (ls.map HostLine.host).Nodup → ∀ l ∈ ls, l.log ∈ coleta snmpwalk (hostsFile ls) log := by
  intro h
  have hlog := h (fun _ => []) [mcjpa05, swcigs04] ∅ (by decide) mcjpa05 (by simp)
  revert hlog
  decide

end SnmpCollector.Walk
