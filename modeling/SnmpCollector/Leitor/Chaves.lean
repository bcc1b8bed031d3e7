import SnmpCollector.Leitor.Escolha
import SnmpCollector.Leitor.Erros
import SnmpCollector.Leitor.Nomes

set_option autoImplicit false

/-! # Interface names in the inventory and in the walk

The reader of the walk meets an interface twice, by its name in the inventory and by its
description in a log. Both become the second part of a key `host_interface`, in different ways:
`controller E1 ` is made `E1` on the side of the inventory, and all blanks are taken out on the
side of the walk. The two sides only meet in a hash lookup. `chaves_iff` says for which names
the keys are the same.
-/

namespace SnmpCollector.Leitor

open Perl

/-! ## The two names -/

def controllerE1 : Str := "controller E1 ".toList

/-- `@dd[1]=~s/controller E1 /E1/g` -/
def nomeInventario (s : Str) : Str := replaceAll controllerE1 "E1".toList s

/-- What the walk loop makes of a description without `=` and `-`. -/
def nomeRow (descr : Str) : Str :=
  semBrancos (field (split '#' (replaceAll "STRING: ".toList "#".toList descr)) 0)

theorem controllerE1_eq : controllerE1
    = 'c' :: ['o', 'n', 't', 'r', 'o', 'l', 'l', 'e', 'r', ' ', 'E', '1', ' '] := rfl

theorem blank_not_mem_nomeRow (s : Str) : ' ' ∉ nomeRow s := by
  simp [nomeRow, semBrancos]

/-- A blank after a colon is not part of `controller E1 `. -/
theorem blank_mem_nomeInventario {s : Str} (h : [':', ' '] <:+: s) : ' ' ∈ nomeInventario s := by
  obtain ⟨a, b, rfl⟩ := h
  have hcolon : ':' ∉ controllerE1 := by rw [controllerE1_eq]; decide
  have hblank : replaceAll controllerE1 "E1".toList (' ' :: b)
      = ' ' :: replaceAll controllerE1 "E1".toList b :=
    replaceAll_append_of_not_mem (x := 'c') (a := [' ']) (by decide) _ _ b
  have happ : a ++ [':', ' '] ++ b = a ++ ':' :: (' ' :: b) := by simp
  rw [nomeInventario, happ, replaceAll_append_cons hcolon (by rw [controllerE1_eq]; simp), hblank]
  simp

/-- A description without `STRING: ` loses its blanks and nothing else. -/
theorem nomeRow_semString {s : Str} (hs : '#' ∉ s) (h : ¬ "STRING: ".toList <:+: s) :
    nomeRow s = semBrancos s := by
  rw [nomeRow, replaceAll_of_not_infix h, field_split, List.splitOn_eq_singleton hs]
  rfl

theorem semBrancos_eq_self {s : Str} (h : ' ' ∉ s) : semBrancos s = s := by
  rw [semBrancos, List.filter_eq_self]
  intro c hc
  have hne : c ≠ ' ' := fun heq => h (heq ▸ hc)
  simpa using hne

/-- **Both sides make the same of a text** exactly when it has no blank. -/
theorem nomeRow_eq_iff {s : Str} (hs : '#' ∉ s) : nomeRow s = nomeInventario s ↔ ' ' ∉ s := by
  constructor
  · intro heq hblank
    have hinv : ' ' ∉ nomeInventario s := heq ▸ blank_not_mem_nomeRow s
    have hstring : ¬ "STRING: ".toList <:+: s := fun h =>
      hinv (blank_mem_nomeInventario (List.IsInfix.trans (by decide) h))
    have hcontr : controllerE1 <:+: s := by
      by_contra h
      rw [nomeInventario, replaceAll_of_not_infix h] at hinv
      exact hinv hblank
    -- up to the first `controller E1 ` both copy the text, then one has `E` and the other `c`
    obtain ⟨a, b, rfl, ha⟩ := exists_first_occurrence (by rw [controllerE1_eq]; simp) hcontr
    have hnome : nomeInventario (a ++ (controllerE1 ++ b))
        = a ++ ("E1".toList ++ nomeInventario b) := by
      rw [controllerE1_eq] at ha
      rw [nomeInventario, controllerE1_eq, replaceAll_append_occurrence (by decide) ha]
      rfl
    rw [hnome] at hinv heq
    have hablank : ' ' ∉ a := fun h => hinv (by simp [h])
    rw [nomeRow_semString hs hstring, semBrancos, List.filter_append, ← semBrancos,
      semBrancos_eq_self hablank, List.append_cancel_left_eq, controllerE1_eq] at heq
    simp at heq
  · intro hblank
    have hstring : ¬ "STRING: ".toList <:+: s := fun h => hblank (h.subset (by simp))
    have hcontr : ¬ controllerE1 <:+: s := fun h => hblank (h.subset (by rw [controllerE1_eq]; simp))
    rw [nomeRow_semString hs hstring, semBrancos_eq_self hblank, nomeInventario,
      replaceAll_of_not_infix hcontr]

theorem nomeRow_E1 (s : Str) : nomeRow ("E1 ".toList ++ s) = "E1".toList ++ nomeRow s := by
  have hstring : "STRING: ".toList = 'S' :: "TRING: ".toList := by decide +kernel
  have hblank : semBrancos "E1 ".toList = "E1".toList := by decide
  have hsplit : ∀ u : Str, semBrancos ("E1 ".toList ++ u) = semBrancos "E1 ".toList ++ semBrancos u :=
    fun u => List.filter_append _ _
  rw [nomeRow, hstring, replaceAll_append_of_not_mem (by decide), field_split_append_zero (by decide),
    hsplit, hblank, ← hstring, ← nomeRow]

theorem nomeInventario_controller (s : Str) :
    nomeInventario ("controller ".toList ++ ("E1 ".toList ++ s)) = "E1".toList ++ nomeInventario s := by
  have happ : "controller ".toList ++ ("E1 ".toList ++ s) = controllerE1 ++ s := by
    rw [← List.append_assoc]
    congr 1
  rw [nomeInventario, happ, controllerE1_eq, replaceAll_append_self, ← controllerE1_eq,
    ← nomeInventario]

/-! ## The inventory line and the row -/

/-- A description on one line without `-`, `#`, `=` and `;`. -/
structure DescrLimpa where
  texto : Str
  limpo : ∀ c ∈ texto, c ∉ ['-', '#', '=', ';', '\n', '\r']

theorem DescrLimpa.not_mem (d : DescrLimpa) {c : Char} (hc : c ∈ ['-', '#', '=', ';', '\n', '\r']) :
    c ∉ d.texto := fun h => d.limpo c h hc

/-- How the inventory names an interface: as its description, or as a controller. -/
inductive Forma where
  | exata
  | controller
  deriving DecidableEq

/-- The name of the interface in the inventory. -/
def Forma.nome (f : Forma) (d : DescrLimpa) : Str :=
  match f with
  | .exata => d.texto
  | .controller => "controller ".toList ++ d.texto

/-- The controller form is for descriptions that begin with `E1 `. -/
def Forma.Cabe (f : Forma) (d : DescrLimpa) : Prop :=
  f = .controller → "E1 ".toList <+: d.texto

/-- The part of the description whose blanks stay in the inventory. -/
def Forma.resto (f : Forma) (d : DescrLimpa) : Str :=
  match f with
  | .exata => d.texto
  | .controller => d.texto.drop 3

/-- The names are the same exactly when this part has no blank. -/
theorem nomeRow_eq_nome_iff {f : Forma} {d : DescrLimpa} (hf : f.Cabe d) :
    nomeRow d.texto = nomeInventario (f.nome d) ↔ ' ' ∉ f.resto d := by
  have hhash : '#' ∉ d.texto := d.not_mem (by simp)
  cases f with
  | exata => exact nomeRow_eq_iff hhash
  | controller =>
      obtain ⟨s, hs⟩ := hf rfl
      have hrest : '#' ∉ s := fun h => hhash (by rw [← hs]; simp [h])
      have hdrop : Forma.controller.resto d = s := by
        show d.texto.drop 3 = s
        rw [← hs]
        exact List.drop_left' (by decide)
      have hnome : Forma.controller.nome d = "controller ".toList ++ ("E1 ".toList ++ s) := by
        rw [hs]
        rfl
      rw [hdrop, hnome, ← hs, nomeRow_E1, nomeInventario_controller, List.append_cancel_left_eq]
      exact nomeRow_eq_iff hrest

/-- The row of a description. -/
theorem lerLinha_descrLimpa (dados : Str) (indice : Nat) (d : DescrLimpa) :
    lerLinha dados (linhaDescr indice (d.texto ++ ['\n']))
      = some ⟨hostArq dados, nomeRow d.texto, decimal indice⟩ := by
  have hchomp : chomp (d.texto ++ ['\n']) = d.texto := by
    rw [chomp_append, chomp_nl, List.append_nil,
      chomp_eq_self (d.not_mem (by simp)) (d.not_mem (by simp))]
  have hmem : ∀ c, c ≠ '#' → c ∈ ['-', '#', '=', ';', '\n', '\r'] →
      c ∉ replaceAll "STRING: ".toList "#".toList d.texto := by
    intro c hne hc h
    rcases mem_replaceAll h with h | h
    · exact hne (by simpa using h)
    · exact d.not_mem hc h
  set D := replaceAll "STRING: ".toList "#".toList d.texto with hD
  have heq : '=' ∉ ' ' :: '#' :: D := by simp [hmem '=' (by decide) (by simp)]
  have hfirst : field (split '=' (' ' :: '#' :: D)) 0 = ' ' :: '#' :: D := by
    rw [field_split, List.splitOn_eq_singleton heq]
    rfl
  have hmap : (' ' :: '#' :: D).map (fun c => if c = '-' then '#' else c) = ' ' :: '#' :: D := by
    have hdash : '-' ∉ ' ' :: '#' :: D := by simp [hmem '-' (by decide) (by simp)]
    refine (List.map_congr_left fun c hc => ?_).trans (List.map_id _)
    have hne : c ≠ '-' := fun h => hdash (h ▸ hc)
    rw [if_neg hne]
    rfl
  have hsplit : field (split '#' (' ' :: '#' :: D)) 1 = field (split '#' D) 0 := by
    have hsem : '#' ∉ [' '] := by decide
    have hcut := List.splitOn_append_cons_self_of_not_mem hsem D
    rw [List.singleton_append] at hcut
    rw [field_split, field_split, hcut]
    rfl
  rw [lerLinha_linhaDescr, hchomp, ← hD, hfirst, hmap, hsplit, nomeRow]

/-! ## The two keys -/

/-- An inventory line for the host `h` of the hosts list that names an interface `nome`. -/
structure LinhaDe (hosts : List Str) (h nome lin : Str) : Prop where
  listado : h ∈ (lerHosts hosts).hostnameFullIp
  lida : 3 ≤ (hostLinha lin).length
  host : hostn (lerHosts hosts) (hostLinha lin) = h
  int : intLinha lin = nome

/-- The key of the inventory line is the key of the row of the description `d` in a log of the
host, so that the interface gets the id of the row. -/
def ChaveOk (hosts : List Str) (lin h ip : Str) (indice : Nat) (d : DescrLimpa) : Prop :=
  let t := lerHosts hosts
  ∃ r, lerLinha (Walk.logName h ip) (linhaDescr indice (d.texto ++ ['\n'])) = some r ∧
    chaveLinha t lin = r.refx ∧
    ∀ (inv : List Str) (dir : List LogFile), lin ∈ inv → r ∈ rows dir →
      (∀ x ∈ rows dir, x.refx = r.refx → x.id = r.id) →
      fetch (lerArquivos (lerInterfaces t inv) dir).hintId (chaveLinha t lin) = decimal indice

/-- Rows that agree on the id leave it, whatever the rule. -/
theorem regra_of_forall {rs : List Row} {id : Str} (hne : rs ≠ []) (h : ∀ r ∈ rs, r.id = id) :
    regra rs = id := by
  induction rs using List.reverseRecOn with
  | nil => exact absurd rfl hne
  | append_singleton rs r ih =>
      rw [regra, List.foldl_append, List.foldl_cons, List.foldl_nil, h r (by simp), ← regra]
      rcases eq_or_ne rs [] with rfl | hrs
      · simp [regra]
      · rw [ih hrs fun x hx => h x (by simp [hx])]
        split <;> rfl

/-- The row of a host with `-` in its name never has the key of an inventory line. -/
theorem hostArq_logName_append_iff {h ip a b : Str} :
    h ++ '_' :: a = hostArq (Walk.logName h ip) ++ '_' :: b ↔ '-' ∉ h ∧ a = b := by
  by_cases hdash : '-' ∈ h
  · obtain ⟨u, v, rfl, hu⟩ := List.eq_append_cons_of_mem hdash
    have hlog : hostArq (Walk.logName (u ++ '-' :: v) ip) = u := by
      have hmem : '-' ∈ Walk.logName (u ++ '-' :: v) ip := by simp [Walk.logName]
      rw [hostArq, if_pos hmem, Walk.logName, List.append_assoc, List.cons_append]
      exact field_split_zero_iff.mpr hu
    rw [hlog, List.append_assoc, List.append_cancel_left_eq]
    simp
  · rw [(hostArq_logName_iff h ip).mpr hdash, List.append_cancel_left_eq]
    simp [hdash]

/-- **When the keys are the same.** The host has no `-` in its name, and the description no
blank, after `E1 ` if the inventory names the interface as a controller. -/
theorem chaves_iff {hosts : List Str} {h lin : Str} {f : Forma} {d : DescrLimpa}
    (hl : LinhaDe hosts h (f.nome d) lin) (hf : f.Cabe d) (ip : Str) (indice : Nat) :
    ChaveOk hosts lin h ip indice d ↔ '-' ∉ h ∧ ' ' ∉ f.resto d := by
  have hrow := lerLinha_descrLimpa (Walk.logName h ip) indice d
  have hchave : chaveLinha (lerHosts hosts) lin = h ++ '_' :: nomeInventario (f.nome d) := by
    rw [chaveLinha, ref, hl.host, hl.int]
    rfl
  have hkey : chaveLinha (lerHosts hosts) lin
      = Row.refx ⟨hostArq (Walk.logName h ip), nomeRow d.texto, decimal indice⟩ ↔
        '-' ∉ h ∧ ' ' ∉ f.resto d := by
    rw [hchave, Row.refx, hostArq_logName_append_iff, eq_comm (a := nomeInventario _),
      nomeRow_eq_nome_iff hf]
  constructor
  · rintro ⟨r, hr, heq, -⟩
    rw [hrow, Option.some.injEq] at hr
    rw [← hr] at heq
    exact hkey.mp heq
  · intro hc
    refine ⟨_, hrow, hkey.mpr hc, fun inv dir _ hr hid => ?_⟩
    rw [fetch_hintId, hkey.mpr hc]
    refine regra_of_forall (fun hnil => ?_) fun x hx => ?_
    · exact List.filter_eq_nil_iff.mp hnil _ hr (by simp)
    · obtain ⟨hx, hk⟩ := List.mem_filter.mp hx
      exact hid x hx (of_decide_eq_true hk)

/-- An interface of the shipped logs. -/
def e1 : DescrLimpa := ⟨"E1 2/0".toList, by simp⟩

/-- The hosts list line of a host. -/
def cta04 : List Str := ["mccta04.cta.psys;10.32.15.4;\n".toList]

/-- Named as a controller, as in the shipped inventory, the interface gets its id. -/
theorem chave_controller : ChaveOk cta04 "mccta04.cta.psys;controller E1 2/0;snmpa;\n".toList
    "mccta04.cta.psys".toList "10.32.15.4".toList 11 e1 :=
  (chaves_iff (f := .controller)
    ⟨by decide +kernel, by decide +kernel, by decide +kernel, by decide +kernel⟩
    (fun _ => by decide) _ _).mpr ⟨by decide, by decide⟩

/-- Named by its description, it does not. -/
theorem chave_com_branco : ¬ ∀ (hosts : List Str) (h lin : Str) (f : Forma) (d : DescrLimpa),
    LinhaDe hosts h (f.nome d) lin → f.Cabe d → ∀ (ip : Str) (indice : Nat),
    ChaveOk hosts lin h ip indice d := by
  intro h
  obtain ⟨r, hr, hk, -⟩ := h cta04 "mccta04.cta.psys".toList "mccta04.cta.psys;E1 2/0;snmpa;\n".toList
    .exata e1 ⟨by decide +kernel, by decide +kernel, by decide +kernel, by decide +kernel⟩
    (fun hf => by cases hf) "10.32.15.4".toList 11
  rw [lerLinha_descrLimpa, Option.some.injEq] at hr
  rw [← hr] at hk
  revert hk
  decide +kernel

end SnmpCollector.Leitor
