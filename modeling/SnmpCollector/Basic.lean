import SnmpCollector.Perl.Split
import SnmpCollector.Perl.Hash
import SnmpCollector.Perl.Number

set_option autoImplicit false

/-! # Text, hashes and files of the collector

The collector is a set of shell and Perl scripts that talk to each other through text files.
A text is a list of characters, a hash maps texts to texts, and a directory maps the names
of its files to their contents.
-/

namespace SnmpCollector

open Perl

abbrev Str := List Char

/-- A directory: a finite map from file names to contents. -/
abbrev Dir := Hash Str Str

/-- `$s=~s/\n//g; $s=~s/\r//g;` -/
def chomp (s : Str) : Str := s.filter (fun c => c != '\n' && c != '\r')

/-- A line without its line break and without double quotes:
`$s=~s/\n//g; $s=~s/\r//g; $s=~s/\"//g;` -/
def limpa (linha : Str) : Str := (chomp linha).filter (· != '"')

/-- `$s=~s/ //g` -/
def semBrancos (s : Str) : Str := s.filter (· != ' ')

/-- `$s=~/p/` for a pattern without special characters: `p` occurs in `s`. -/
def contem (p s : Str) : Bool := decide (p <:+: s)

@[simp] theorem contem_iff {p s : Str} : contem p s = true ↔ p <:+: s := decide_eq_true_iff

/-- `[0-9]{1,3}\.` at the front of a text: the text after it. -/
def aposOcteto (s : Str) : Option Str :=
  let d := s.takeWhile Char.isDigit
  match s.dropWhile Char.isDigit with
  | '.' :: resto => if 1 ≤ d.length ∧ d.length ≤ 3 then some resto else none
  | _ => none

/-- `$s=~/[0-9]{1,3}\.[0-9]{1,3}\.[0-9]{1,3}\.[0-9]{1,3}/`: the pattern may start anywhere. -/
def temEndereco (s : Str) : Bool :=
  s.tails.any fun t =>
    match (aposOcteto t).bind fun t => (aposOcteto t).bind aposOcteto with
    | some (c :: _) => c.isDigit
    | _ => false

/-- What `localtime` returns: the months are counted from 0, the years from 1900. -/
structure Localtime where
  ano : Int
  mes : Nat
  diaM : Nat
  hora : Nat
  min : Nat
  seg : Nat
  deriving DecidableEq

/-- `$data_reg`, in the format `%04d-%02d-%02d %02d:%02d:%02d`. -/
def Localtime.dataReg (h : Localtime) : Str :=
  zeros 4 (1900 + h.ano) ++ '-' :: (zeros 2 (h.mes + 1) ++ '-' :: (zeros 2 h.diaM ++ ' ' ::
    (zeros 2 h.hora ++ ':' :: (zeros 2 h.min ++ ':' :: zeros 2 h.seg))))

/-- The contents of a file; a file that cannot be opened reads as empty. -/
def conteudo (d : Dir) (nome : Str) : Str := fetch d nome

/-- What `readdir` returns: the names in some order, `.` and `..` among them. -/
def readdir {ν : Type*} (ordem : KeyOrder Unit Str) (d : Hash Str ν) : List Str :=
  ordem.keys () (".".toList :: "..".toList :: d.keys)

theorem mem_readdir {ν : Type*} (ordem : KeyOrder Unit Str) {d : Hash Str ν} {nome : Str}
    (h : nome ∈ d) : nome ∈ readdir ordem d := by
  rw [readdir, KeyOrder.mem_keys]
  exact List.mem_cons_of_mem _ (List.mem_cons_of_mem _ (AList.mem_keys.mp h))

theorem conteudo_insert_self (d : Dir) (k v : Str) : conteudo (d.insert k v) k = v := by
  rw [conteudo, fetch_insert, if_pos rfl]

theorem conteudo_insert_ne (d : Dir) {k k' : Str} (h : k' ≠ k) (v : Str) :
    conteudo (d.insert k v) k' = conteudo d k' := by
  rw [conteudo, fetch_insert, if_neg h]
  rfl

theorem conteudo_erase_ne (d : Dir) {k k' : Str} (h : k' ≠ k) :
    conteudo (d.erase k) k' = conteudo d k' := by
  rw [conteudo, fetch, AList.lookup_erase_ne h]
  rfl

theorem mem_chomp {c : Char} {s : Str} (h : c ∈ chomp s) : c ∈ s ∧ c ≠ '\n' ∧ c ≠ '\r' := by
  simpa [chomp] using h

theorem chomp_eq_self {s : Str} (hn : '\n' ∉ s) (hr : '\r' ∉ s) : chomp s = s := by
  rw [chomp, List.filter_eq_self]
  intro c hc
  have h1 : c ≠ '\n' := fun h => hn (h ▸ hc)
  have h2 : c ≠ '\r' := fun h => hr (h ▸ hc)
  simp [h1, h2]

theorem chomp_append (a b : Str) : chomp (a ++ b) = chomp a ++ chomp b := List.filter_append a b

theorem chomp_nl : chomp ['\n'] = [] := by simp [chomp]

theorem chomp_delimited (fs : List Str) : chomp (delimited ';' fs) = delimited ';' (fs.map chomp) := by
  induction fs with
  | nil => rfl
  | cons f fs ih =>
      rw [delimited_cons, List.map_cons, delimited_cons, ← ih, chomp, List.filter_append]
      rfl

/-- A line of printed fields, read without its line break. -/
theorem field_chomp_delimited {fs : List Str} (h : ∀ f ∈ fs, ';' ∉ f) {n : Nat} (hn : n < fs.length) :
    field (split ';' (chomp (delimited ';' fs ++ ['\n']))) n = chomp (field fs n) := by
  have hfs : ∀ f ∈ fs.map chomp, ';' ∉ f := by
    intro f hf hsep
    obtain ⟨f', hf', rfl⟩ := List.mem_map.mp hf
    exact h f' hf' (mem_chomp hsep).1
  have hsplit := field_split_delimited hfs [] (n := n) (by simpa using hn)
  rw [List.append_nil] at hsplit
  rw [chomp_append, chomp_nl, List.append_nil, chomp_delimited, hsplit, field, field,
    List.getD_eq_getElem?_getD, List.getD_eq_getElem?_getD, List.getElem?_map,
    List.getElem?_eq_getElem hn]
  rfl

theorem limpa_append (a b : Str) : limpa (a ++ b) = limpa a ++ limpa b := by
  simp [limpa, chomp]

theorem limpa_nl (s : Str) : limpa (s ++ ['\n']) = limpa s := by
  simp [limpa, chomp]

theorem mem_limpa {c : Char} {s : Str} (h : c ∈ limpa s) : c ∈ s := by
  simp only [limpa, List.mem_filter] at h
  exact (mem_chomp h.1).1

theorem limpa_eq_self {s : Str} (h : ∀ c ∈ s, c ≠ '\n' ∧ c ≠ '\r' ∧ c ≠ '"') : limpa s = s := by
  rw [limpa, chomp_eq_self (fun hc => (h _ hc).1 rfl) (fun hc => (h _ hc).2.1 rfl),
    List.filter_eq_self]
  intro c hc
  simpa using (h c hc).2.2

theorem not_nl_limpa (valor : Str) : '\n' ∉ limpa valor := by
  simp [limpa, chomp]

theorem Localtime.mem_dataReg {h : Localtime} {c : Char} (hc : c ∈ h.dataReg) :
    c = '-' ∨ c = ' ' ∨ c = ':' ∨ c.isDigit = true := by
  have hz : ∀ {w : Nat} {z : Int}, c ∈ zeros w z → c = '-' ∨ c = ' ' ∨ c = ':' ∨ c.isDigit = true :=
    fun hz => (mem_zeros hz).imp_right fun hd => Or.inr (Or.inr hd)
  simp only [Localtime.dataReg, List.mem_append, List.mem_cons] at hc
  rcases hc with hc | rfl | hc | rfl | hc | rfl | hc | rfl | hc | rfl | hc
  · exact hz hc
  · simp
  · exact hz hc
  · simp
  · exact hz hc
  · simp
  · exact hz hc
  · simp
  · exact hz hc
  · simp
  · exact hz hc

end SnmpCollector
