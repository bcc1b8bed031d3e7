import SnmpCollector.NetSnmp.Mib
import SnmpCollector.Snmp.Tabelas

set_option autoImplicit false

/-! # The objects of a host (`get_table` in `snmp/coleta_mem_temp_pwr.pl`)

A visit asks for each of its tables over a session of `Net::SNMP`. `agenteDe` is what it gets, and
`lookup_agente_row` says that from a host that serves its objects in order the row `n` of a column
is the object with that name. So `registros_dos_aparelhos` speaks of the hosts: each record of a run
has the name and the counters of one memory pool of one host.
-/

namespace SnmpCollector.Snmp

open Perl NetSnmp

/-! ## One table -/

/-- `%{$result}`: the table, the empty one when the request has failed. -/
def tabela : Option (Except Str (Hash Str Scalar)) → Hash Str Str
  | some (.ok table) => load id (fun k => ((table.lookup k).getD (.str [])).text) ∅ table.keys
  | _ => ∅

/-- `$session->get_table($oid)`, with a session for each table and `n` requests at most. -/
def agenteDe (session : Str → Session) (n : Nat) : Agente := fun oid =>
  tabela (getTable (session oid) oid none n)

theorem lookup_tabela (table : Hash Str Scalar) (k : Str) :
    (tabela (some (.ok table))).lookup k = (table.lookup k).map Scalar.text := by
  rw [tabela, lookup_load, AList.lookup_empty, Option.or_none]
  cases hk : table.lookup k with
  | none =>
      have hnone : lastSuch (fun x => decide (id x = k)) table.keys = none := by
        refine lastSuch_eq_none.mpr fun x hx hxk => ?_
        have hmem := AList.lookup_isSome.mpr (AList.mem_keys.mpr hx)
        rw [show x = k from of_decide_eq_true hxk, hk] at hmem
        cases hmem
      rw [hnone]
      rfl
  | some v =>
      have hmem : k ∈ table.keys := by
        rw [← AList.mem_keys, ← AList.lookup_isSome, hk]
        rfl
      have hlast := lastSuch_eq_of_unique (p := fun x => decide (id x = k)) hmem (by simp)
        (fun y _ hy => of_decide_eq_true hy)
      rw [hlast, Option.map_some, hk]
      rfl

/-- What the script gets has the rows and no others. -/
theorem lookup_tabela_final {env : Env} {rows : List VarBind}
    {r : Except Str (Hash Str Scalar)} (h : Final env rows r) (k x : Str) :
    (tabela (some r)).lookup k = some x ↔
      ∃ b ∈ rows, b.key env = k ∧ (b.value.shown env).text = x := by
  rcases h with ⟨rfl, rfl⟩ | ⟨-, table, rfl, hholds⟩
  · simp [tabela]
  · rw [lookup_tabela, Option.map_eq_some_iff]
    constructor
    · rintro ⟨v, hv, rfl⟩
      obtain ⟨b, hb, hkey, rfl⟩ := (hholds k v).mp hv
      exact ⟨b, hb, hkey, rfl⟩
    · rintro ⟨b, hb, hkey, rfl⟩
      exact ⟨b.value.shown env, (hholds k _).mpr ⟨b, hb, hkey, rfl⟩, rfl⟩

/-! ## A host -/

theorem lt_concat (l : List Nat) (n : Nat) : l < l ++ [n] := by
  induction l with
  | nil => exact List.nil_lt_cons n []
  | cons m l ih => exact List.cons_lt_cons_iff.mpr (.inr ⟨rfl, ih⟩)

/-- A host with its objects. Its names are shown without a leading dot. -/
structure Aparelho where
  mib : Mib
  env : Env
  session : Str → Session
  session_env : ∀ oid, (session oid).env = env
  honest : ∀ oid, Honest (session oid) mib
  semPonto : env.leadingDot = false

namespace Aparelho

variable (a : Aparelho)

/-- The tables of the host: there is a request for each object, and one. -/
def agente : Agente := agenteDe a.session (a.mib.rows.length + 1)

/-- The object of a name, as a text. -/
def texto (o : List Nat) : Option Str := (a.mib.get o).map fun b => (b.value.shown a.env).text

theorem lookup_agente (base : Oid) (k x : Str) :
    (a.agente base.text).lookup k = some x ↔
      ∃ b ∈ a.mib.under base.subs, dotted b.name.subs = k ∧ (b.value.shown a.env).text = x := by
  have hlen : (a.mib.under base.subs).length < a.mib.rows.length + 1 :=
    Nat.lt_succ_of_le ((List.length_filter_le _ _).trans (List.length_filter_le _ _))
  have hrow : ∀ b : VarBind, b.key a.env = dotted b.name.subs := fun b => by
    simp [VarBind.key, Oid.shown, oidText, a.semPonto, blanks]
  have henv : { (a.session base.text).env with
      leadingDot := (a.session base.text).env.leadingDot || false } = a.env := by
    rw [a.session_env]
    simp
  obtain ⟨r, hr, hfinal⟩ :=
    @getTable_final _ _ (a.honest base.text) base false 0 none (by simp) _ hlen
  rw [henv] at hfinal
  rw [← Oid.text_eq] at hr
  rw [agente, agenteDe, hr, lookup_tabela_final hfinal]
  simp only [hrow]

/-- **The row `n` of a column is the object with that name.** -/
theorem lookup_agente_row (base : Oid) (n : Nat) :
    (a.agente base.text).lookup (base.text ++ '.' :: decimal n) = a.texto (base.subs ++ [n]) := by
  have htext : base.text ++ '.' :: decimal n = dotted (base.subs ++ [n]) :=
    (dotted_concat base.subs_ne_nil n).symm
  have hunder : ∀ b : VarBind, b ∈ a.mib.under base.subs ∧
      dotted b.name.subs = base.text ++ '.' :: decimal n ↔
        a.mib.get (base.subs ++ [n]) = some b := fun b => by
    rw [htext, Mib.get_eq_some]
    constructor
    · rintro ⟨hb, hname⟩
      exact ⟨(Mib.mem_under.mp hb).1, dotted_injective b.name.subs_ne_nil (by simp) hname⟩
    · rintro ⟨hb, hname⟩
      rw [hname, Mib.mem_under, hname]
      exact ⟨⟨hb, lt_concat _ n, List.prefix_append _ _⟩, rfl⟩
  ext x
  rw [lookup_agente, texto, Option.map_eq_some_iff]
  constructor
  · rintro ⟨b, hb, hname, rfl⟩
    exact ⟨b, (hunder b).mp ⟨hb, hname⟩, rfl⟩
  · rintro ⟨b, hget, rfl⟩
    obtain ⟨hb, hname⟩ := (hunder b).mpr hget
    exact ⟨b, hb, hname, rfl⟩

/-- The objects of a column have one number after the name of the column. -/
def EmColuna (base : Oid) : Prop :=
  ∀ b ∈ a.mib.under base.subs, ∃ n, b.name.subs = base.subs ++ [n]

theorem soRows_agente {v : Visita} (hv : v.agente = a.agente) {base : Oid}
    (h : a.EmColuna base) : v.SoRows base.text := by
  intro k hk
  rw [hv, ← AList.lookup_isSome] at hk
  obtain ⟨x, hx⟩ := Option.isSome_iff_exists.mp hk
  obtain ⟨b, hb, rfl, -⟩ := (a.lookup_agente base k x).mp hx
  obtain ⟨n, hn⟩ := h b hb
  exact ⟨n, by rw [hn, dotted_concat base.subs_ne_nil]; rfl⟩

end Aparelho

/-! ## The memory pools -/

def memTipo : Oid := .org [6, 1, 4, 1, 9, 9, 48, 1, 1, 1, 2] (by decide)
def memFree : Oid := .org [6, 1, 4, 1, 9, 9, 48, 1, 1, 1, 5] (by decide)
def memUtl : Oid := .org [6, 1, 4, 1, 9, 9, 48, 1, 1, 1, 6] (by decide)

theorem text_memTipo : memTipo.text = oidMemTipo := by decide +kernel
theorem text_memFree : memFree.text = oidMemFree := by decide +kernel
theorem text_memUtl : memUtl.text = oidMemUtl := by decide +kernel

/-- The three columns of the pools have one number for each row. -/
def Aparelho.EmColunas (a : Aparelho) : Prop :=
  a.EmColuna memTipo ∧ a.EmColuna memFree ∧ a.EmColuna memUtl

/-- The record of the pool `n`. -/
def Aparelho.registro (a : Aparelho) (hostname : Str) (n : Nat) : Gravacao :=
  ⟨hostname, (a.texto (memTipo.subs ++ [n])).getD [], (a.texto (memFree.subs ++ [n])).getD [],
    (a.texto (memUtl.subs ++ [n])).getD []⟩

section Visita

variable {a : Aparelho} {v : Visita}

theorem soRows_aparelho (hv : v.agente = a.agente) (h : a.EmColunas) :
    ∀ oid ∈ colunasMem, v.SoRows oid := by
  obtain ⟨htipo, hfree, hutl⟩ := h
  intro oid hoid
  simp only [colunasMem, List.mem_cons, List.not_mem_nil, or_false] at hoid
  rcases hoid with rfl | rfl | rfl
  · exact text_memTipo ▸ a.soRows_agente hv htipo
  · exact text_memFree ▸ a.soRows_agente hv hfree
  · exact text_memUtl ▸ a.soRows_agente hv hutl

theorem valorDe_aparelho (hv : v.agente = a.agente) (base : Oid) (n : Nat) :
    v.valorDe base.text n = a.texto (base.subs ++ [n]) := by
  rw [Visita.valorDe, hv, a.lookup_agente_row]

theorem gravacaoRow_aparelho (hv : v.agente = a.agente) (hostname : Str) (n : Nat) :
    gravacaoRow v hostname n = a.registro hostname n := by
  rw [gravacaoRow, Aparelho.registro, ← text_memTipo, ← text_memFree, ← text_memUtl,
    valorDe_aparelho hv, valorDe_aparelho hv, valorDe_aparelho hv]

/-- The rounds of a visit: one for each pool of the host. -/
theorem mem_gravacoes_aparelho (hv : v.agente = a.agente) (h : a.EmColunas) (hostname : Str)
    {g : Gravacao} : g ∈ gravacoes v hostname ↔
      ∃ n, (a.mib.get (memTipo.subs ++ [n])).isSome ∧ g = a.registro hostname n := by
  have hda := da_lerTabelas (soRows_aparelho hv h) ⟨∅, ∅, ∅⟩
  have hrounds : (lerTabelas v ⟨∅, ∅, ∅⟩).gravacoes v hostname = gravacoes v hostname := rfl
  rw [← hrounds, hda.mem_gravacoes]
  refine exists_congr fun n => ?_
  rw [gravacaoRow_aparelho hv, ← text_memTipo, valorDe_aparelho hv, Aparelho.texto,
    Option.isSome_map]

end Visita

/-- **The records are those of the hosts.** From hosts that serve their objects in order, whatever
the orders of the keys and however many rows a response has: each record that a run makes has the
name and the counters of one pool of the host that the line names, and as long as the lines are
visited and no division ends the run, each pool has its record. -/
theorem registros_dos_aparelhos (rel : Nat → Hora) {visitas : Nat → Visita}
    {aparelhos : Nat → Aparelho} (hv : ∀ i, (visitas i).agente = (aparelhos i).agente)
    (hcol : ∀ i, (aparelhos i).EmColunas) (pingT : List Str) :
    (∀ e ∈ eventos rel visitas pingT, ∃ l ∈ alcancadas visitas pingT, ∃ n,
      consultado visitas l = true ∧ e.1 = rel l.2 ∧
        ((aparelhos l.2).mib.get (memTipo.subs ++ [n])).isSome ∧
        e.2 = (aparelhos l.2).registro (hostname l.1) n) ∧
    ∀ l ∈ alcancadas visitas pingT, consultado visitas l = true → para visitas l = false →
      ∀ n, ((aparelhos l.2).mib.get (memTipo.subs ++ [n])).isSome →
        (rel l.2, (aparelhos l.2).registro (hostname l.1) n) ∈ eventos rel visitas pingT := by
  constructor
  · intro e he
    obtain ⟨l, hl, hc, hhora, hg⟩ := mem_eventos he
    obtain ⟨n, hn, hg⟩ := (mem_gravacoes_aparelho (hv l.2) (hcol l.2) (hostname l.1)).mp hg
    exact ⟨l, hl, n, hc, hhora, hn, hg⟩
  · intro l hl hc hpara n hn
    have hg := (mem_gravacoes_aparelho (hv l.2) (hcol l.2) (hostname l.1)).mpr ⟨n, hn, rfl⟩
    refine List.mem_flatMap.mpr ⟨l, hl, List.mem_map_of_mem ?_⟩
    obtain ⟨hsel, hsessao⟩ := Bool.and_eq_true_iff.mp hc
    have hvive : (gravacoes (visitas l.2) (hostname l.1)).any Gravacao.morre = false := by
      simpa [para, hsel, hsessao] using hpara
    rw [rodadasLinha, if_pos hc, upTo_eq_self hvive]
    exact hg

/-- A host with one pool. -/
def processorMib : Mib where
  rows :=
    [⟨.org [6, 1, 4, 1, 9, 9, 48, 1, 1, 1, 2, 1] (by decide),
        .octetString [67, 80, 85] (by decide)⟩,
      ⟨.org [6, 1, 4, 1, 9, 9, 48, 1, 1, 1, 5, 1] (by decide), .gauge 70⟩,
      ⟨.org [6, 1, 4, 1, 9, 9, 48, 1, 1, 1, 6, 1] (by decide), .gauge 30⟩]
  sorted := by decide
  value := by decide

theorem maxMsgSize_newMessage (version : Nat) : (newMessage version 1472).maxMsgSize ≤ 65535 := by
  show 1472 ≤ 65535
  decide

def processorHost : Aparelho where
  mib := processorMib
  env := newMessage SNMP_VERSION_1 1472
  session := fun _ =>
    processorMib.session (newMessage SNMP_VERSION_1 1472) (maxMsgSize_newMessage _)
  session_env := fun _ => rfl
  honest := fun _ => processorMib.honest _ _
  semPonto := rfl

theorem emColunas_processorHost : processorHost.EmColunas := by
  have hrows : ∀ base ∈ [memTipo, memFree, memUtl], ∀ b ∈ processorMib.rows,
      base.subs <+: b.name.subs → b.name.subs = base.subs ++ [1] := by
    decide
  have hcol : ∀ base ∈ [memTipo, memFree, memUtl], processorHost.EmColuna base := by
    intro base hbase b hb
    obtain ⟨hrow, -, hunder⟩ := Mib.mem_under.mp hb
    exact ⟨1, hrows base hbase b hrow hunder⟩
  exact ⟨hcol _ (by simp), hcol _ (by simp), hcol _ (by simp)⟩

def visitaProcessor : Visita := ⟨true, processorHost.agente, .stored⟩

theorem registros_processor :
    (⟨⟨111, 7, 3, 1, 53, 42⟩, 1312347222⟩,
        ⟨"mcpae01.pae.psys".toList, "CPU".toList, "70".toList, "30".toList⟩) ∈
      eventos (fun n => ⟨⟨111, 7, 3, 1, 53, 42⟩, 1312347222 + n⟩) (fun _ => visitaProcessor)
        ["mcpae01.pae.psys;10.32.66.1;\n".toList] := by
  have hregistro : processorHost.registro (hostname "mcpae01.pae.psys;10.32.66.1;\n".toList) 1
      = ⟨"mcpae01.pae.psys".toList, "CPU".toList, "70".toList, "30".toList⟩ := by
    decide +kernel
  rw [← hregistro]
  exact (@registros_dos_aparelhos (fun n => ⟨⟨111, 7, 3, 1, 53, 42⟩, 1312347222 + n⟩)
    (fun _ => visitaProcessor) (fun _ => processorHost) (fun _ => rfl)
    (fun _ => emColunas_processorHost) _).2 ("mcpae01.pae.psys;10.32.66.1;\n".toList, 0)
    (by decide +kernel) (by decide +kernel) (by decide +kernel) 1 (by decide +kernel)

end SnmpCollector.Snmp
