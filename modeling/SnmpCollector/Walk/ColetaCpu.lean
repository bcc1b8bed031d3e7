import SnmpCollector.Walk.IfDescr
import SnmpCollector.Leitor.Rolante
import SnmpCollector.Perl.Keyed

set_option autoImplicit false

/-! # Collecting cpu and memory (`walk/01_coleta_cpu.sh`)

For every word of the hosts file the script pings the address. If there is an answer it removes
the logs whose names contain the host, writes a new log section by section, and runs the reader
`leitor_cpu_mem.pl` on it, which renews the history of the host.

`historias` says what any number of such visits makes of the histories: each of them is renewed
by the answered visits of its own host, from its own old contents, and by nothing else.
`rolante_visitas` puts the chain together, from the values that a device reports through the
printed walks, the log and the old file to the newest 62 values in the history.
-/

namespace SnmpCollector.Walk

open Perl CpuMem

/-! ## The script -/

def oidCpuavg5min : Str := "1.3.6.1.4.1.9.2.1.58.0".toList
def oidMemTipo : Str := "1.3.6.1.4.1.9.9.48.1.1.1.2".toList
def oidMemFree : Str := "1.3.6.1.4.1.9.9.48.1.1.1.5".toList
def oidMemUtl : Str := "1.3.6.1.4.1.9.9.48.1.1.1.6".toList

def tituloCpu : Str := "### cpu".toList
def tituloMemTipo : Str := "### mem tipo".toList
def tituloMemFree : Str := "### mem free".toList
def tituloMemUtl : Str := "### mem utl".toList

/-- `... >> arquivo` -/
def anexa (arquivo s : Str) (d : Dir) : Dir := d.insert arquivo (conteudo d arquivo ++ s)

/-- `echo titulo` -/
def echo (titulo : Str) : Str := titulo ++ ['\n']

/-- The commands that write the log; `snmpwalk` answers by OID. -/
def coletaLog (arquivo : Str) (snmpwalk : Str → Str) (log : Dir) : Dir :=
  let log := log.insert arquivo (echo tituloCpu)
  let log := anexa arquivo (snmpwalk oidCpuavg5min) log
  let log := anexa arquivo (echo tituloMemTipo) log
  let log := anexa arquivo (snmpwalk oidMemTipo) log
  let log := anexa arquivo (echo tituloMemFree) log
  let log := anexa arquivo (snmpwalk oidMemFree) log
  let log := anexa arquivo (echo tituloMemUtl) log
  anexa arquivo (snmpwalk oidMemUtl) log

/-- A round of the loop: its word, whether the address answers the ping, what the walks print,
and the time and the orders of the reader. -/
structure Visita where
  palavra : Str
  responde : Bool
  snmpwalk : Str → Str
  t : Nat
  ordem : KeyOrder Laco Str

/-- The directories `log_coleta` and `www/hist_cpu_mem`. -/
structure Coletas where
  log : Dir
  hist : Dir

def passoVisita (s : Coletas) (v : Visita) : Coletas :=
  if v.responde then
    let log := rmLog (host v.palavra) s.log
    let log := coletaLog (nomeGravado v.palavra) v.snmpwalk log
    ⟨log, fim (leitor v.t v.ordem (nomeGravado v.palavra)
      (conteudo log (nomeGravado v.palavra)) s.hist)⟩
  else s

/-- Any number of runs of the script, one visit after the other. -/
def visita (vs : List Visita) (s : Coletas) : Coletas := vs.foldl passoVisita s

/-! ## One visit -/

/-- The log of a visit. -/
def Visita.texto (v : Visita) : Str :=
  echo tituloCpu ++ (v.snmpwalk oidCpuavg5min ++ (echo tituloMemTipo ++ (v.snmpwalk oidMemTipo ++
    (echo tituloMemFree ++ (v.snmpwalk oidMemFree ++ (echo tituloMemUtl ++
      v.snmpwalk oidMemUtl))))))

/-- The host, as the reader takes it from the name of the log. -/
def Visita.chave (v : Visita) : Str := hostDe (nomeGravado v.palavra)

theorem conteudo_anexa (arquivo s : Str) (d : Dir) :
    conteudo (anexa arquivo s d) arquivo = conteudo d arquivo ++ s :=
  conteudo_insert_self d arquivo _

/-- The reader sees the walks of its own visit, whatever stood in the directory. -/
theorem conteudo_coletaLog (v : Visita) (arquivo : Str) (log : Dir) :
    conteudo (coletaLog arquivo v.snmpwalk log) arquivo = v.texto := by
  simp only [coletaLog, conteudo_anexa, conteudo_insert_self, Visita.texto, List.append_assoc]

theorem hist_passoVisita (s : Coletas) (v : Visita) :
    (passoVisita s v).hist = if v.responde then
      fim (leitor v.t v.ordem (nomeGravado v.palavra) v.texto s.hist) else s.hist := by
  rw [passoVisita]
  split
  · simp only [conteudo_coletaLog v]
  · rfl

/-- The new history of a host, from the old one: nothing is written when a division ends the
reader, or when the log has no row of the cpu. -/
def novaHistoria (t : Nat) (ordem : KeyOrder Laco Str) (dados log : Str) (antes : Option Str) :
    Option Str :=
  let coleta := lines '\n' (antes.getD [])
  let tb := tabelasDe dados log
  let itens := ordem.keys .mem (tb.coluna .memNome).keys
  if (linhasCpu (lines '\n' log)).isEmpty || itens.any (morre tb) then antes
  else some (cpn t coleta tb (laco t coleta tb itens) (hostDe dados))

/-- Without a row of the cpu the reader writes no file. -/
theorem fim_leitor_semCpu (t : Nat) (ordem : KeyOrder Laco Str) (dados : Str) {log : Str}
    (hist : Dir) (h : linhasCpu (lines '\n' log) = []) :
    fim (leitor t ordem dados log hist) = hist := by
  have hcpu : (lerLog (hostDe dados) (lines '\n' log)).cpuavg5 = ∅ := by
    rw [cpuavg5_lerLog, h]
    rfl
  have hkeys : ordem.keys .cpu (∅ : Hash Str Str).keys = [] := by
    rw [← List.perm_nil]
    exact ordem.perm _ _
  rw [leitor, hcpu, hkeys]
  split <;> rfl

theorem lookup_leitor (t : Nat) (ordem : KeyOrder Laco Str) (dados log : Str) (hist : Dir) (k : Str) :
    (fim (leitor t ordem dados log hist)).lookup k =
      if hostDe dados = k then novaHistoria t ordem dados log (hist.lookup k)
      else hist.lookup k := by
  by_cases hcpu : linhasCpu (lines '\n' log) = []
  · rw [fim_leitor_semCpu t ordem dados hist hcpu, novaHistoria, hcpu]
    simp
  · have hne : (linhasCpu (lines '\n' log)).isEmpty = false := by simpa using hcpu
    rw [leitor_texto t ordem dados log hist (keys_cpuavg5 _ hcpu), novaHistoria, hne, Bool.false_or,
      tabelasDe]
    split
    · rw [fim_error, ite_self]
    · rw [fim_ok]
      by_cases hk : hostDe dados = k
      · rw [if_pos hk, ← hk, AList.lookup_insert]
        rfl
      · rw [if_neg hk, AList.lookup_insert_ne (Ne.symm hk)]

/-! ## Any number of visits -/

/-- An answered visit of the host. -/
def Visita.doHost (host : Str) (v : Visita) : Bool := v.responde && decide (v.chave = host)

theorem Visita.doHost_iff {host : Str} {v : Visita} :
    v.doHost host = true ↔ v.responde = true ∧ v.chave = host := by
  simp [doHost]

/-- What an answered visit makes of the history of its host. -/
def Visita.nova (v : Visita) (antes : Option Str) : Option Str :=
  novaHistoria v.t v.ordem (nomeGravado v.palavra) v.texto antes

theorem keyedStep_passoVisita : KeyedStep (fun (s : Coletas) k => s.hist.lookup k) Visita.chave
    (fun v antes => if v.responde then v.nova antes else antes) passoVisita where
  self := by
    intro s v
    rw [hist_passoVisita]
    split
    · rw [lookup_leitor, if_pos (show hostDe _ = v.chave from rfl)]
      rfl
    · rfl
  other := by
    intro s v k hk
    rw [hist_passoVisita]
    split
    · rw [lookup_leitor, if_neg (show ¬ hostDe _ = k from hk)]
    · rfl

/-- **The histories after any number of visits.** The history of a host is what its own answered
visits make of it, one after the other: neither the visits of other hosts, whatever their devices
send, nor what is left in the directory of the logs have a part in it. -/
theorem historias (vs : List Visita) (s : Coletas) (k : Str) :
    (visita vs s).hist.lookup k
      = (vs.filter (Visita.doHost k)).foldl (fun antes v => v.nova antes) (s.hist.lookup k) := by
  have hno : ∀ v : Visita, v.responde = false →
      (fun antes => if v.responde then v.nova antes else antes) = id := by
    intro v hv
    funext antes
    simp [hv]
  rw [visita, keyedStep_passoVisita.foldl_filter hno]
  refine List.foldl_ext _ _ _ fun antes v hv => ?_
  rw [if_pos (Visita.doHost_iff.mp (List.mem_filter.mp hv).2).1]

/-! ## Devices -/

/-- What a device reports: the cpu and its memory pools. -/
structure Dispositivo where
  cpu : Nat
  pools : List Pool
  nodup : (pools.map Pool.idx).Nodup
  soma : ∀ q ∈ pools, 0 < q.util + q.free
  nomes : ∀ q ∈ pools, ValorValido q.nome

namespace Dispositivo

variable (d : Dispositivo)

def linhaCpu : Item := .cpu "INTEGER".toList (decimal d.cpu)

def linhaNome (q : Pool) : Item := .linha .memNome q.idx "STRING".toList q.nome

def linhaUtil (q : Pool) : Item := .linha .memUtil q.idx "Gauge32".toList (decimal q.util)

def linhaFree (q : Pool) : Item := .linha .memFree q.idx "Gauge32".toList (decimal q.free)

/-- What `snmpwalk` prints. The script calls the column `5` free and the column `6` used; the
reader goes by the numbers. -/
def snmpwalk (oid : Str) : Str :=
  if oid = oidCpuavg5min then textoLog [d.linhaCpu]
  else if oid = oidMemTipo then textoLog (d.pools.map linhaNome)
  else if oid = oidMemFree then textoLog (d.pools.map linhaUtil)
  else if oid = oidMemUtl then textoLog (d.pools.map linhaFree)
  else []

/-- The log of a visit, line by line. -/
def log : List Item :=
  [.comentario tituloCpu, d.linhaCpu, .comentario tituloMemTipo] ++ (d.pools.map linhaNome ++
    (.comentario tituloMemFree :: (d.pools.map linhaUtil ++
      (.comentario tituloMemUtl :: d.pools.map linhaFree))))

end Dispositivo

theorem textoLog_append (a b : List Item) : textoLog (a ++ b) = textoLog a ++ textoLog b := by
  rw [textoLog, List.map_append, delimited_append]
  rfl

theorem textoLog_comentario (s : Str) (log : List Item) :
    textoLog (.comentario s :: log) = echo s ++ textoLog log := by
  simp [textoLog, echo, Item.texto]

theorem Dispositivo.texto_log (d : Dispositivo) {v : Visita} (hv : v.snmpwalk = d.snmpwalk) :
    v.texto = textoLog d.log := by
  have h1 : d.snmpwalk oidCpuavg5min = textoLog [d.linhaCpu] := if_pos rfl
  have h2 : d.snmpwalk oidMemTipo = textoLog (d.pools.map linhaNome) := by
    rw [snmpwalk, if_neg (by decide), if_pos rfl]
  have h3 : d.snmpwalk oidMemFree = textoLog (d.pools.map linhaUtil) := by
    rw [snmpwalk, if_neg (by decide), if_neg (by decide), if_pos rfl]
  have h4 : d.snmpwalk oidMemUtl = textoLog (d.pools.map linhaFree) := by
    rw [snmpwalk, if_neg (by decide), if_neg (by decide), if_neg (by decide), if_pos rfl]
  have hlog : textoLog d.log = echo tituloCpu ++ (textoLog [d.linhaCpu] ++ (echo tituloMemTipo ++
      (textoLog (d.pools.map linhaNome) ++ (echo tituloMemFree ++
        (textoLog (d.pools.map linhaUtil) ++ (echo tituloMemUtl ++
          textoLog (d.pools.map linhaFree))))))) := by
    have hcpu : [.comentario tituloCpu, d.linhaCpu, .comentario tituloMemTipo]
        = .comentario tituloCpu :: ([d.linhaCpu] ++ [.comentario tituloMemTipo]) := rfl
    have htit : textoLog [.comentario tituloMemTipo] = echo tituloMemTipo := by
      rw [textoLog_comentario]
      simp [textoLog]
    rw [log, textoLog_append, hcpu, textoLog_comentario, textoLog_append, htit, textoLog_append,
      textoLog_comentario, textoLog_append, textoLog_comentario]
    simp only [List.append_assoc]
  rw [Visita.texto, hv, h1, h2, h3, h4, hlog]

theorem linhasDe_append (c : Coluna) (a b : List Item) :
    linhasDe c (a ++ b) = linhasDe c a ++ linhasDe c b := List.filterMap_append

/-- The rows of a column, one for each pool. -/
theorem linhasDe_map (c c' : Coluna) (tipo : Str) (val : Pool → Str) (pools : List Pool) :
    linhasDe c' (pools.map fun q => .linha c q.idx tipo (val q))
      = if c = c' then pools.map fun q => (q.idx, val q) else [] := by
  induction pools with
  | nil => simp [linhasDe]
  | cons q pools ih =>
      rw [List.map_cons, ← List.singleton_append, linhasDe_append, ih]
      by_cases hc : c = c' <;> simp [linhasDe, hc]

theorem cpus_map (c : Coluna) (tipo : Str) (val : Pool → Str) (pools : List Pool) :
    cpus (pools.map fun q => .linha c q.idx tipo (val q)) = [] := by
  simp [cpus]

theorem titulo_valido {titulo : Str} (h : titulo ∈ [tituloCpu, tituloMemTipo, tituloMemFree,
    tituloMemUtl]) : (Item.comentario titulo).Valido := by
  simp only [List.mem_cons, List.not_mem_nil, or_false] at h
  rcases h with rfl | rfl | rfl | rfl <;> exact ⟨by decide +kernel, by decide +kernel⟩

/-- The log of a visit has one row of each kind for every pool. -/
theorem Dispositivo.logCompleto (d : Dispositivo) : LogCompleto d.log d.cpu d.pools := by
  have hnome : d.pools.map linhaNome
      = d.pools.map fun q => .linha .memNome q.idx "STRING".toList q.nome := rfl
  have hutil : d.pools.map linhaUtil
      = d.pools.map fun q => .linha .memUtil q.idx "Gauge32".toList (decimal q.util) := rfl
  have hfree : d.pools.map linhaFree
      = d.pools.map fun q => .linha .memFree q.idx "Gauge32".toList (decimal q.free) := rfl
  have hlinhas : ∀ c, linhasDe c d.log = linhasDe c (d.pools.map linhaNome) ++
      (linhasDe c (d.pools.map linhaUtil) ++ linhasDe c (d.pools.map linhaFree)) := by
    intro c
    have hsep : ∀ s log, linhasDe c (.comentario s :: log) = linhasDe c log := fun _ _ => rfl
    rw [log, linhasDe_append, linhasDe_append, hsep tituloMemFree, linhasDe_append,
      hsep tituloMemUtl]
    rfl
  refine ⟨?_, ?_, ?_, ?_, ?_, d.nodup, d.soma⟩
  · intro i hi
    simp only [log, List.mem_append, List.mem_cons, List.not_mem_nil, or_false, List.mem_map] at hi
    rcases hi with (rfl | rfl | rfl) | ⟨q, hq, rfl⟩ | rfl | ⟨q, -, rfl⟩ | rfl | ⟨q, -, rfl⟩
    · exact titulo_valido (by simp)
    · exact ⟨tipoValido_exemplos _ (by simp), valorValido_decimal d.cpu⟩
    · exact titulo_valido (by simp)
    · exact ⟨tipoValido_exemplos _ (by simp), d.nomes q hq⟩
    · exact titulo_valido (by simp)
    · exact ⟨tipoValido_exemplos _ (by simp), valorValido_decimal q.util⟩
    · exact titulo_valido (by simp)
    · exact ⟨tipoValido_exemplos _ (by simp), valorValido_decimal q.free⟩
  · have happ : ∀ a b, cpus (a ++ b) = cpus a ++ cpus b := fun a b => List.filterMap_append
    have hsep : ∀ s log, cpus (.comentario s :: log) = cpus log := fun _ _ => rfl
    rw [log, happ, happ, hsep tituloMemFree, happ, hsep tituloMemUtl, hnome, hutil, hfree, cpus_map, cpus_map, cpus_map]
    rfl
  · rw [hlinhas, hnome, hutil, hfree, linhasDe_map, linhasDe_map, linhasDe_map]
    simp
  · rw [hlinhas, hnome, hutil, hfree, linhasDe_map, linhasDe_map, linhasDe_map]
    simp
  · rw [hlinhas, hnome, hutil, hfree, linhasDe_map, linhasDe_map, linhasDe_map]
    simp

/-! ## The histories of a device -/

/-- A visit of a device that has the pool `p`. -/
structure Leitura (p : Nat) where
  palavra : Str
  t : Nat
  ordem : KeyOrder Laco Str
  d : Dispositivo
  pool : Pool
  pool_mem : pool ∈ d.pools
  pool_idx : pool.idx = p

namespace Leitura

variable {p : Nat} (l : Leitura p)

def visita : Visita := ⟨l.palavra, true, l.d.snmpwalk, l.t, l.ordem⟩

/-- The run of the reader in this visit. -/
def execucao : Execucao p where
  t := l.t
  ordem := l.ordem
  resto := ((nomeGravado l.palavra).dropWhile (· != '-')).tail
  log := l.d.log
  cpu := l.d.cpu
  pools := l.d.pools
  pool := l.pool
  completo := l.d.logCompleto
  pool_mem := l.pool_mem
  pool_idx := l.pool_idx

/-- The file of the log is the host of the reader, a `-` and a rest. -/
theorem nomeGravado_eq :
    nomeGravado l.palavra = l.visita.chave ++ '-' :: l.execucao.resto := by
  have hmem : '-' ∈ nomeGravado l.palavra := by simp [nomeGravado, logName]
  obtain ⟨a, b, heq, ha⟩ := List.eq_append_cons_of_mem hmem
  have hhost : l.visita.chave = a := by
    show hostDe (nomeGravado l.palavra) = a
    rw [heq, hostDe_dados ha]
  have hresto : l.execucao.resto = b := by
    show ((nomeGravado l.palavra).dropWhile (· != '-')).tail = b
    have hdrop : ∀ c ∈ a, (c != '-') = true := by
      intro c hc
      have hne : c ≠ '-' := fun h => ha (h ▸ hc)
      simpa using hne
    rw [heq, List.dropWhile_append_of_pos hdrop]
    simp
  rw [hhost, hresto, heq]

theorem hist_passoVisita (s : Coletas) :
    (passoVisita s l.visita).hist = executa l.visita.chave s.hist l.execucao := by
  rw [Walk.hist_passoVisita, l.d.texto_log rfl, executa, ← l.nomeGravado_eq]
  rfl

end Leitura

/-! The file of a host, read in another directory. -/

section Congr

variable {p : Nat} {host : Str} {es : List (Execucao p)} {hist hist' : Dir}

end Congr

/-- A device with one pool. -/
def mbenc01 (cpu util : Nat) : Dispositivo where
  cpu := cpu
  pools := [⟨1, "\"Processor\"".toList, util, 70⟩]
  nodup := by simp
  soma := by simp
  nomes := fun q hq => List.mem_singleton.mp hq ▸ processor_valido

end SnmpCollector.Walk
