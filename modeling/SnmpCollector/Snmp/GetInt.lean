import SnmpCollector.Snmp.MemTempPwr
import SnmpCollector.Leitor.Inventario

set_option autoImplicit false

/-! # Polling the interfaces (`snmp/get_int.pl`)

The poller goes through `id_getsnmp.txt`. A line whose columns give an address and an index is
polled, the others are skipped. Each polled line adds one line to `tmp_res_get.txt`: the time
since when the interface has its status, the address, the statuses, the counters and the key.
The time is taken over from the line of the key in the previous `res_get.txt` if the statuses
there are the same.

A session that cannot be created or a request without an answer ends the program. Only a run
that reaches the end of the list moves the temporary file over `res_get.txt`, so that a
reader of `res_get.txt` sees complete runs only (`getInt_publica`).
-/

namespace SnmpCollector.Snmp.GetInt

open Perl Leitor

/-! ## Decoding a line -/

/-- What a line of `id_getsnmp.txt` says: `$ip_host`, `$host_a`, `$int_a`, `$id_int` and the key
`$tinfo`. -/
structure Alvo where
  ipHost : Str
  hostA : Str
  intA : Str
  idInt : Str
  tinfo : Str
  deriving DecidableEq

/-- The test for an address and an index. -/
def Alvo.valido (d : Alvo) : Bool := temEndereco d.ipHost && temDigito d.idInt

/-- The columns of the layout `key;host;interface;tag;host;ip;id;`. -/
def alvoCompleto (dd : List Str) : Alvo :=
  ⟨field dd 5, field dd 1, field dd 2, field dd 6, field dd 0⟩

/-- The columns of the layout `key;host;interface;tag;ip;tag;id;`. -/
def alvoCurto (dd : List Str) : Alvo :=
  ⟨field dd 4, field (split '_' (field dd 0)) 0, field dd 2, field dd 6, field dd 0⟩

/-- The second layout is tried when the first does not fit; a line that fits neither is
skipped. -/
def decodifica (item : Str) : Option Alvo :=
  let dd := split ';' item
  let d := if (alvoCompleto dd).valido then alvoCompleto dd else alvoCurto dd
  if d.valido then some d else none

/-! ## The request -/

/-- `%h_ifoperstatus` -/
def hIfoperstatus : Hash Str Str :=
  load Prod.fst Prod.snd ∅
    [("1".toList, "up".toList), ("2".toList, "down".toList), ("3".toList, "testing".toList),
     ("4".toList, "unknown".toList), ("5".toList, "dormant".toList),
     ("6".toList, "notPresent".toList), ("7".toList, "lowerLayerDown".toList)]

def oidIfstatus (idInt : Str) : Str := "1.3.6.1.2.1.2.2.1.8.".toList ++ idInt
def oidIfadminStatus (idInt : Str) : Str := "1.3.6.1.2.1.2.2.1.7.".toList ++ idInt
def oidIfInOctets (idInt : Str) : Str := "1.3.6.1.2.1.2.2.1.10.".toList ++ idInt
def oidIfInErrors (idInt : Str) : Str := "1.3.6.1.2.1.2.2.1.14.".toList ++ idInt
def oidIfOutOctets (idInt : Str) : Str := "1.3.6.1.2.1.2.2.1.16.".toList ++ idInt
def oidIfOutErrors (idInt : Str) : Str := "1.3.6.1.2.1.2.2.1.20.".toList ++ idInt
def oidIfSpeed (idInt : Str) : Str := "1.3.6.1.2.1.2.2.1.5.".toList ++ idInt

/-- The outcome of polling a line: no session, no answer to the request, or the value of every
OID. -/
inductive Resultado where
  | semSessao
  | semResposta
  | resposta (result : Str → Str)

/-- The clock and the outcome when a line is polled. -/
structure Consulta where
  hora : Hora
  resultado : Resultado

/-- `%h_st_old`: the lines of the previous `res_get.txt` by their thirteenth field. -/
def hStOld (lin : List Str) : Hash Str Str :=
  load (fun st => field (split ';' st) 12) id ∅ (lin.map chomp)

/-- The translated operational and administrative status in an answer. -/
def statusPar (d : Alvo) (result : Str → Str) : Str × Str :=
  (fetch hIfoperstatus (result (oidIfstatus d.idInt)),
   fetch hIfoperstatus (result (oidIfadminStatus d.idInt)))

/-- `$t` and `$data_reg` as they are printed: those of the old line if it has the same statuses. -/
def tempo (old : Hash Str Str) (d : Alvo) (h : Hora) (result : Str → Str) : Str × Str :=
  let testeOld := split ';' (fetch old d.tinfo)
  if (field testeOld 5, field testeOld 6) = statusPar d result then
    (field testeOld 0, field testeOld 1)
  else (decimal h.t, h.dataReg)

/-- The fields of the line that is printed for an answer. -/
def camposRes (old : Hash Str Str) (d : Alvo) (h : Hora) (result : Str → Str) : List Str :=
  [(tempo old d h result).1, (tempo old d h result).2, d.ipHost, d.hostA, d.intA,
   (statusPar d result).1, (statusPar d result).2,
   result (oidIfInErrors d.idInt), result (oidIfOutErrors d.idInt),
   result (oidIfInOctets d.idInt), result (oidIfOutOctets d.idInt),
   result (oidIfSpeed d.idInt), d.tinfo]

def linhaRes (old : Hash Str Str) (d : Alvo) (h : Hora) (result : Str → Str) : Str :=
  delimited ';' (camposRes old d h result)

/-! ## A run -/

/-- A line of `id_getsnmp.txt` and what happens when it is polled. -/
structure Poll where
  item : Str
  consulta : Consulta

/-- The files the poller writes: `tmp_res_get.txt` and `res_get.txt`. -/
structure Arquivos where
  tmpResGet : Str
  resGet : Str
  deriving DecidableEq

/-- The body of the loop: `tmp` is what the temporary file holds. -/
def passoGet (old : Hash Str Str) (tmp : Str) (v : Poll) : Except Str Str :=
  match decodifica v.item with
  | none => .ok tmp
  | some d =>
      match v.consulta.resultado with
      | .semSessao => .error tmp
      | .semResposta => .error tmp
      | .resposta result => .ok (tmp ++ (linhaRes old d v.consulta.hora result ++ ['\n']))

/-- What a run finds: the text of `id_getsnmp.txt`, and the clock and outcome for its `i`-th
line. -/
structure Rodada where
  idGetsnmp : Str
  consulta : Nat → Consulta

/-- The lines of a run with their outcomes. -/
def Rodada.polls (r : Rodada) : List Poll :=
  (lines '\n' r.idGetsnmp).mapIdx fun i item => ⟨item, r.consulta i⟩

/-- A run: on success the temporary file replaces `res_get.txt`. -/
def getInt (r : Rodada) (a : Arquivos) : Arquivos :=
  match r.polls.foldlM (passoGet (hStOld (lines '\n' a.resGet))) [] with
  | .ok tmp => ⟨[], tmp⟩
  | .error tmp => ⟨tmp, a.resGet⟩

/-- The runs one after the other. -/
def executa (rs : List Rodada) (a : Arquivos) : Arquivos := rs.foldl (fun a r => getInt r a) a

/-- The states of the files from the opening of the temporary file on, which holds `tmp`: one
after every line and the one the run leaves. -/
def estadosLaco (old : Hash Str Str) (res : Str) : Str → List Poll → List Arquivos
  | tmp, [] => [⟨tmp, res⟩, ⟨[], tmp⟩]
  | tmp, v :: vs => ⟨tmp, res⟩ ::
      match passoGet old tmp v with
      | .ok tmp' => estadosLaco old res tmp' vs
      | .error tmp' => [⟨tmp', res⟩]

/-- All states of the files during a run. -/
def estados (r : Rodada) (a : Arquivos) : List Arquivos :=
  a :: estadosLaco (hStOld (lines '\n' a.resGet)) a.resGet [] r.polls

/-! ## What a run publishes -/

/-- The line is polled and its session or its request fails. -/
def Poll.falha (v : Poll) : Bool :=
  (decodifica v.item).isSome &&
    match v.consulta.resultado with
    | .semSessao => true
    | .semResposta => true
    | .resposta _ => false

/-- No line of the run fails. -/
def Rodada.completa (r : Rodada) : Bool := !r.polls.any Poll.falha

/-- The line that polling `v` adds, if any. -/
def saida (old : Hash Str Str) (v : Poll) : List Str :=
  match decodifica v.item, v.consulta.resultado with
  | some d, .resposta result => [linhaRes old d v.consulta.hora result]
  | _, _ => []

/-- **One step of the loop.** A failure ends the program, everything else adds the line of the
poll or nothing. -/
theorem passoGet_eq (old : Hash Str Str) (tmp : Str) (v : Poll) :
    passoGet old tmp v
      = if v.falha then .error tmp else .ok (tmp ++ delimited '\n' (saida old v)) := by
  unfold passoGet Poll.falha saida
  cases decodifica v.item with
  | none => simp
  | some d => cases v.consulta.resultado <;> simp

/-- **The whole loop**, from the first step on. -/
theorem foldlM_passoGet (old : Hash Str Str) (vs : List Poll) (tmp : Str) :
    (vs.any Poll.falha = true → ∃ tmp', vs.foldlM (passoGet old) tmp = .error tmp') ∧
    (vs.any Poll.falha = false →
      vs.foldlM (passoGet old) tmp = .ok (tmp ++ delimited '\n' (vs.flatMap (saida old)))) := by
  induction vs generalizing tmp with
  | nil => exact ⟨fun h => by simp at h, fun _ => by simp [pure, Except.pure]⟩
  | cons v vs ih =>
      rw [List.foldlM_cons, passoGet_eq, List.any_cons]
      cases hv : v.falha with
      | true => exact ⟨fun _ => ⟨tmp, rfl⟩, fun h => by simp at h⟩
      | false =>
          obtain ⟨ih1, ih2⟩ := ih (tmp ++ delimited '\n' (saida old v))
          rw [Bool.false_or]
          refine ⟨ih1, fun h => ?_⟩
          rw [List.flatMap_cons, delimited_append, ← List.append_assoc]
          exact ih2 h

theorem resGet_of_falha {r : Rodada} (h : r.completa = false) (a : Arquivos) :
    (getInt r a).resGet = a.resGet := by
  obtain ⟨tmp, htmp⟩ := (foldlM_passoGet (hStOld (lines '\n' a.resGet)) r.polls []).1
    (by simpa [Rodada.completa] using h)
  rw [getInt, htmp]

theorem resGet_of_completa {r : Rodada} (h : r.completa = true) (a : Arquivos) :
    (getInt r a).resGet
      = delimited '\n' (r.polls.flatMap (saida (hStOld (lines '\n' a.resGet)))) := by
  have hok := (foldlM_passoGet (hStOld (lines '\n' a.resGet)) r.polls []).2
    (by simpa [Rodada.completa] using h)
  rw [getInt, hok, List.nil_append]

/-! ### The printed lines -/

/-- A text that can be a field of a line. -/
def Claro (f : Str) : Prop := ';' ∉ f ∧ '\n' ∉ f

/-- The values that come back are free of `;` and line breaks. -/
def Rodada.Limpa (r : Rodada) : Prop :=
  ∀ i result, (r.consulta i).resultado = .resposta result → ∀ oid, Claro (result oid)

/-- What the table gives is one of its texts, or empty. -/
theorem fetch_hIfoperstatus_mem (s : Str) :
    fetch hIfoperstatus s ∈ [[], "up".toList, "down".toList, "testing".toList, "unknown".toList,
      "dormant".toList, "notPresent".toList, "lowerLayerDown".toList] := by
  rw [fetch, hIfoperstatus, lookup_load]
  cases hlast : lastSuch (fun x : Str × Str => decide (x.1 = s)) _ with
  | none => exact List.mem_cons_self
  | some x =>
      have hx := List.mem_map_of_mem (f := Prod.snd) (lastSuch_eq_some hlast).1
      rw [Option.map_some, Option.some_or, Option.getD_some]
      exact List.mem_cons_of_mem _ hx

theorem claro_status (s : Str) : Claro (fetch hIfoperstatus s) := by
  have key : ∀ x ∈ [[], "up".toList, "down".toList, "testing".toList, "unknown".toList,
      "dormant".toList, "notPresent".toList, "lowerLayerDown".toList], ';' ∉ x ∧ '\n' ∉ x := by
    decide
  exact key _ (fetch_hIfoperstatus_mem s)

theorem not_nl_fetch_hStOld (lin : List Str) (k : Str) : '\n' ∉ fetch (hStOld lin) k := by
  rw [fetch, hStOld, lookup_load]
  cases hlast : lastSuch (fun st => decide (field (split ';' st) 12 = k)) (lin.map chomp) with
  | none => simp
  | some st =>
      obtain ⟨st', _, rfl⟩ := List.mem_map.mp (lastSuch_eq_some hlast).1
      rw [Option.map_some, Option.some_or, Option.getD_some]
      exact fun h => (mem_chomp h).2.1 rfl

theorem claro_field {s : Str} (h : '\n' ∉ s) (n : Nat) : Claro (field (split ';' s) n) :=
  ⟨(field_split_spec ';' s n).1, fun hn => h ((field_split_spec ';' s n).2 hn)⟩

theorem claro_tempo (lin : List Str) (d : Alvo) (h : Hora) (result : Str → Str) :
    Claro (tempo (hStOld lin) d h result).1 ∧ Claro (tempo (hStOld lin) d h result).2 := by
  unfold tempo
  dsimp only
  split
  · exact ⟨claro_field (not_nl_fetch_hStOld lin _) 0, claro_field (not_nl_fetch_hStOld lin _) 1⟩
  · refine ⟨⟨?_, ?_⟩, ⟨?_, ?_⟩⟩
    · intro hc
      exact absurd (isDigit_of_mem_decimal hc) (by decide)
    · intro hc
      exact absurd (isDigit_of_mem_decimal hc) (by decide)
    · intro hc
      rcases Localtime.mem_dataReg hc with h | h | h | h <;> exact absurd h (by decide)
    · intro hc
      rcases Localtime.mem_dataReg hc with h | h | h | h <;> exact absurd h (by decide)

/-- A decoded line has an address and an index, in one of the two layouts. -/
theorem decodifica_cases {item : Str} {d : Alvo} (hd : decodifica item = some d) :
    d.valido = true ∧ (d = alvoCompleto (split ';' item) ∨ d = alvoCurto (split ';' item)) := by
  set e := if (alvoCompleto (split ';' item)).valido then alvoCompleto (split ';' item)
    else alvoCurto (split ';' item) with he
  have hd' : (if e.valido then some e else none) = some d := hd
  by_cases hv : e.valido = true
  · rw [if_pos hv, Option.some.injEq] at hd'
    subst hd'
    refine ⟨hv, ?_⟩
    rw [he]
    split
    · exact Or.inl rfl
    · exact Or.inr rfl
  · rw [if_neg hv] at hd'
    exact absurd hd' (by simp)

/-- The columns of a decoded line hold no line break: the line break is after the index. -/
theorem claro_decodifica {item : Str} (hitem : '\n' ∉ item.dropLast) {d : Alvo}
    (hd : decodifica item = some d) :
    Claro d.ipHost ∧ Claro d.hostA ∧ Claro d.intA ∧ Claro d.tinfo := by
  set dd := split ';' item with hdd
  obtain ⟨hvalido, hlayout⟩ := decodifica_cases hd
  have hdig : temDigito (field dd 6) = true := by
    rcases hlayout with rfl | rfl
    · exact (Bool.and_eq_true_iff.mp hvalido).2
    · exact (Bool.and_eq_true_iff.mp hvalido).2
  -- the column of the index is there, so the columns before it end before the line does
  have hlen : 6 < (item.splitOn ';').length := by
    by_contra hle
    rw [hdd, field_split, field, List.getD_eq_default _ _ (Nat.not_lt.mp hle)] at hdig
    exact absurd hdig (by decide)
  have hcol : ∀ n < 6, Claro (field dd n) := by
    intro n hn
    refine ⟨(field_split_spec ';' item n).1, fun hnl => hitem ?_⟩
    rw [hdd, field_split] at hnl
    exact mem_dropLast_of_mem_field (by omega) hnl
  have hhx : Claro (field (split '_' (field dd 0)) 0) := by
    have hsub := (field_split_spec '_' (field dd 0) 0).2
    exact ⟨fun h => (hcol 0 (by decide)).1 (hsub h), fun h => (hcol 0 (by decide)).2 (hsub h)⟩
  rcases hlayout with rfl | rfl
  · exact ⟨hcol 5 (by decide), hcol 1 (by decide), hcol 2 (by decide), hcol 0 (by decide)⟩
  · exact ⟨hcol 4 (by decide), hhx, hcol 2 (by decide), hcol 0 (by decide)⟩

/-- The polls of a run come from the lines of `id_getsnmp.txt` and their outcomes. -/
theorem mem_polls {r : Rodada} {v : Poll} (hv : v ∈ r.polls) :
    v.item ∈ lines '\n' r.idGetsnmp ∧ ∃ i, v.consulta = r.consulta i := by
  obtain ⟨i, hi, rfl⟩ := List.mem_mapIdx.mp hv
  exact ⟨List.getElem_mem hi, i, rfl⟩

theorem claro_camposRes {r : Rodada} (hr : r.Limpa) {v : Poll} (hv : v ∈ r.polls) {d : Alvo}
    (hd : decodifica v.item = some d) {result : Str → Str}
    (hres : v.consulta.resultado = .resposta result) (lin : List Str) :
    ∀ f ∈ camposRes (hStOld lin) d v.consulta.hora result, Claro f := by
  obtain ⟨hitem, i, hi⟩ := mem_polls hv
  obtain ⟨h1, h2, h3, h4⟩ := claro_decodifica (not_mem_dropLast_of_mem_lines hitem) hd
  have hval : ∀ oid, Claro (result oid) := hr i result (by rw [← hi]; exact hres)
  obtain ⟨ht, hdata⟩ := claro_tempo lin d v.consulta.hora result
  intro f hf
  simp only [camposRes, List.mem_cons, List.not_mem_nil, or_false] at hf
  rcases hf with rfl | rfl | rfl | rfl | rfl | rfl | rfl | rfl | rfl | rfl | rfl | rfl | rfl
  · exact ht
  · exact hdata
  · exact h1
  · exact h2
  · exact h3
  · exact claro_status _
  · exact claro_status _
  · exact hval _
  · exact hval _
  · exact hval _
  · exact hval _
  · exact hval _
  · exact h4

/-- A printed line gives its fields back. -/
theorem field_linhaRes {old : Hash Str Str} {d : Alvo} {h : Hora} {result : Str → Str}
    (hclaro : ∀ f ∈ camposRes old d h result, Claro f) (s : Str) {n : Nat} (hn : n < 13) :
    field (split ';' (linhaRes old d h result ++ s)) n = field (camposRes old d h result) n :=
  field_split_delimited (fun f hf => (hclaro f hf).1) s hn

theorem not_nl_linhaRes {old : Hash Str Str} {d : Alvo} {h : Hora} {result : Str → Str}
    (hclaro : ∀ f ∈ camposRes old d h result, Claro f) : '\n' ∉ linhaRes old d h result := by
  intro hnl
  rcases mem_delimited hnl with hc | ⟨f, hf, hc⟩
  · exact absurd hc (by decide)
  · exact (hclaro f hf).2 hc

/-- The key of a line is its first column in both layouts. -/
theorem tinfo_decodifica {item : Str} {d : Alvo} (hd : decodifica item = some d) :
    d.tinfo = field (split ';' item) 0 := by
  rcases (decodifica_cases hd).2 with rfl | rfl
  · rfl
  · rfl

/-- The keys of the lines that are polled, in the order of the list. -/
def Rodada.chaves (r : Rodada) : List Str :=
  ((lines '\n' r.idGetsnmp).filter fun item => (decodifica item).isSome).map
    fun item => field (split ';' item) 0

theorem mem_saida {old : Hash Str Str} {v : Poll} {lin : Str} (h : lin ∈ saida old v) :
    ∃ d result, decodifica v.item = some d ∧ v.consulta.resultado = .resposta result ∧
      lin = linhaRes old d v.consulta.hora result := by
  unfold saida at h
  split at h
  · rename_i d result hd hres
    exact ⟨d, result, hd, hres, List.mem_singleton.mp h⟩
  · simp at h

theorem lines_publicado {r : Rodada} (hr : r.Limpa) (h : r.completa = true) (a : Arquivos) :
    lines '\n' (getInt r a).resGet
      = (r.polls.flatMap (saida (hStOld (lines '\n' a.resGet)))).map (· ++ ['\n']) := by
  rw [resGet_of_completa h, lines_delimited]
  intro lin hlin
  obtain ⟨v, hv, hmem⟩ := List.mem_flatMap.mp hlin
  obtain ⟨d, result, hd, hres, rfl⟩ := mem_saida hmem
  exact not_nl_linhaRes (claro_camposRes hr hv hd hres _)

theorem map_item_polls (r : Rodada) : r.polls.map Poll.item = lines '\n' r.idGetsnmp := by
  apply List.ext_getElem
  · simp [Rodada.polls]
  · intro i h1 h2
    simp [Rodada.polls]

/-- A printed line carries the key of its target. -/
theorem chave_of_mem_saida {r : Rodada} (hr : r.Limpa) {v : Poll} (hv : v ∈ r.polls)
    {lin : List Str} {d : Alvo} (hd : decodifica v.item = some d) {l : Str}
    (hl : l ∈ saida (hStOld lin) v) : field (split ';' (l ++ ['\n'])) 12 = d.tinfo := by
  obtain ⟨d', result, hd', hres, rfl⟩ := mem_saida hl
  rw [hd, Option.some.injEq] at hd'
  subst hd'
  rw [field_linhaRes (claro_camposRes hr hv hd hres lin) _ (by decide)]
  rfl

/-- Every polled line that does not fail prints one line with its key in the thirteenth field. -/
theorem chaves_saida {r : Rodada} (hr : r.Limpa) (lin : List Str) {vs : List Poll}
    (hvs : ∀ v ∈ vs, v ∈ r.polls ∧ v.falha = false) :
    ((vs.flatMap (saida (hStOld lin))).map (· ++ ['\n'])).map (fun l => field (split ';' l) 12)
      = ((vs.map Poll.item).filter fun item => (decodifica item).isSome).map
          fun item => field (split ';' item) 0 := by
  induction vs with
  | nil => rfl
  | cons v vs ih =>
      obtain ⟨hv, hok⟩ := hvs v (by simp)
      rw [List.flatMap_cons, List.map_append, List.map_append,
        ih (fun w hw => hvs w (by simp [hw])), List.map_cons]
      cases hd : decodifica v.item with
      | none =>
          have hnil : saida (hStOld lin) v = [] := by simp [saida, hd]
          rw [hnil, List.filter_cons_of_neg (by simp [hd])]
          rfl
      | some d =>
          -- a poll that does not fail has an answer, and prints one line
          obtain ⟨result, hres⟩ : ∃ result, v.consulta.resultado = .resposta result := by
            cases hres : v.consulta.resultado with
            | semSessao => simp [Poll.falha, hd, hres] at hok
            | semResposta => simp [Poll.falha, hd, hres] at hok
            | resposta result => exact ⟨result, rfl⟩
          have hone : saida (hStOld lin) v = [linhaRes (hStOld lin) d v.consulta.hora result] := by
            simp [saida, hd, hres]
          have hkey : field (split ';' (linhaRes (hStOld lin) d v.consulta.hora result ++ ['\n'])) 12
              = field (split ';' v.item) 0 := by
            rw [chave_of_mem_saida hr hv hd (by rw [hone]; simp), tinfo_decodifica hd]
          rw [hone, List.filter_cons_of_pos (by simp [hd]), List.map_singleton, List.map_singleton,
            hkey]
          rfl

theorem chaves_publicado {r : Rodada} (hr : r.Limpa) (h : r.completa = true) (a : Arquivos) :
    (lines '\n' (getInt r a).resGet).map (fun lin => field (split ';' lin) 12) = r.chaves := by
  rw [lines_publicado hr h, chaves_saida hr, map_item_polls]
  · rfl
  · intro v hv
    have hnone : ∀ w ∈ r.polls, ¬ w.falha = true := by simpa [Rodada.completa] using h
    exact ⟨hv, by simpa using hnone v hv⟩

/-! ### The states in between -/

/-- During a run `res_get.txt` is the previous one until the run is complete. -/
theorem resGet_estadosLaco {old : Hash Str Str} {res tmp : Str} {vs : List Poll} {e : Arquivos}
    (he : e ∈ estadosLaco old res tmp vs) :
    e.resGet = res ∨ vs.foldlM (passoGet old) tmp = .ok e.resGet := by
  induction vs generalizing tmp with
  | nil =>
      simp only [estadosLaco, List.mem_cons, List.not_mem_nil, or_false] at he
      rcases he with rfl | rfl
      · exact Or.inl rfl
      · exact Or.inr rfl
  | cons v vs ih =>
      rw [estadosLaco, List.mem_cons] at he
      rw [List.foldlM_cons]
      rcases he with rfl | he
      · exact Or.inl rfl
      · cases hp : passoGet old tmp v with
        | ok tmp' =>
            rw [hp] at he
            exact ih he
        | error tmp' =>
            rw [hp] at he
            exact Or.inl (by rw [List.mem_singleton.mp he])

theorem getLast_estadosLaco (old : Hash Str Str) (res tmp : Str) (vs : List Poll) :
    (estadosLaco old res tmp vs).getLast? = some
      (match vs.foldlM (passoGet old) tmp with
        | .ok tmp' => ⟨[], tmp'⟩
        | .error tmp' => ⟨tmp', res⟩) := by
  induction vs generalizing tmp with
  | nil => rfl
  | cons v vs ih =>
      rw [estadosLaco, List.foldlM_cons]
      cases hp : passoGet old tmp v with
      | error tmp' => rfl
      | ok tmp' =>
          rw [List.getLast?_cons, ih tmp']
          rfl

/-- The last of the states of a run is the one the run leaves. -/
theorem getLast_estados (r : Rodada) (a : Arquivos) :
    (estados r a).getLast? = some (getInt r a) := by
  rw [estados, List.getLast?_cons, getLast_estadosLaco]
  rfl

theorem resGet_estados {r : Rodada} {a e : Arquivos} (he : e ∈ estados r a) :
    e.resGet = a.resGet ∨ (r.completa = true ∧ e.resGet = (getInt r a).resGet) := by
  rcases List.mem_cons.mp he with rfl | he
  · exact Or.inl rfl
  · rcases resGet_estadosLaco he with hres | hok
    · exact Or.inl hres
    · refine Or.inr ⟨?_, by rw [getInt, hok]⟩
      by_contra hfalha
      obtain ⟨tmp', htmp⟩ := (foldlM_passoGet (hStOld (lines '\n' a.resGet)) r.polls []).1
        (by simpa [Rodada.completa] using hfalha)
      rw [htmp] at hok
      exact absurd hok (by simp)

/-- The text is what some run of `rs` published, the files being `a` before the first run. -/
def Publicado (rs : List Rodada) (a : Arquivos) (res : Str) : Prop :=
  ∃ antes r depois, rs = antes ++ r :: depois ∧ r.completa = true ∧
    res = (getInt r (executa antes a)).resGet

theorem executa_concat (rs : List Rodada) (r : Rodada) (a : Arquivos) :
    executa (rs ++ [r]) a = getInt r (executa rs a) := by
  rw [executa, List.foldl_append]
  rfl

theorem publicado_concat {rs : List Rodada} {a : Arquivos} {res : Str} (h : Publicado rs a res)
    (r : Rodada) : Publicado (rs ++ [r]) a res := by
  obtain ⟨antes, r', depois, rfl, hr', hres⟩ := h
  exact ⟨antes, r', depois ++ [r], by simp, hr', hres⟩

/-- After any sequence of runs `res_get.txt` is the initial one or what one of them published. -/
theorem resGet_executa (rs : List Rodada) (a : Arquivos) :
    (executa rs a).resGet = a.resGet ∨ Publicado rs a (executa rs a).resGet := by
  induction rs using List.reverseRecOn with
  | nil => exact Or.inl rfl
  | append_singleton rs r ih =>
      rw [executa_concat]
      cases hr : r.completa with
      | true => exact Or.inr ⟨rs, r, [], by simp, hr, rfl⟩
      | false =>
          rw [resGet_of_falha hr]
          exact ih.imp_right fun h => publicado_concat h r

/-- **Published results are never partial.** A run in which a polled line fails leaves
`res_get.txt` as it was, a run without a failure leaves one line per decodable line of
`id_getsnmp.txt`, in order and each with its key; and in every state of every sequence of
runs `res_get.txt` is the initial one or what a complete run published. -/
theorem getInt_publica (antes : List Rodada) (r : Rodada) (a : Arquivos) (hr : r.Limpa) :
    (r.completa = false → (getInt r (executa antes a)).resGet = (executa antes a).resGet) ∧
    (r.completa = true → (lines '\n' (getInt r (executa antes a)).resGet).map
      (fun lin => field (split ';' lin) 12) = r.chaves) ∧
    ∀ e ∈ estados r (executa antes a),
      e.resGet = a.resGet ∨ Publicado (antes ++ [r]) a e.resGet := by
  refine ⟨fun h => resGet_of_falha h _, fun h => chaves_publicado hr h _, fun e he => ?_⟩
  rcases resGet_estados he with hres | ⟨hc, hres⟩
  · rw [hres]
    exact (resGet_executa antes a).imp_right fun h => publicado_concat h r
  · exact Or.inr ⟨antes, r, [], by simp, hc, hres⟩

/-- The line of the shipped `id_getsnmp.txt`. -/
def linhaPae02 : Str :=
  "swcpae02.pae.psys_FastEthernet0/23;swcpae02.pae.psys;FastEthernet0/23;snmpb;swcpae02.pae.psys;10.33.16.62;10023;\n".toList

def chavePae02 : Str := "swcpae02.pae.psys_FastEthernet0/23".toList

/-- A run over this file in which the agent answers every request with `valor`. -/
def rodadaPae02 (h : Hora) (valor : Str) : Rodada :=
  ⟨linhaPae02, fun _ => ⟨h, .resposta fun _ => valor⟩⟩

theorem limpa_rodadaPae02 (h : Hora) {valor : Str} (hv : Claro valor) :
    (rodadaPae02 h valor).Limpa := by
  intro i result hres oid
  have hval : (fun _ => valor) = result := Resultado.resposta.inj hres
  rw [← hval]
  exact hv

theorem idGetsnmp_rodadaPae02 (h : Hora) (valor : Str) :
    (rodadaPae02 h valor).idGetsnmp = linhaPae02 := by
  rw [rodadaPae02]

theorem polls_rodadaPae02 (h : Hora) (valor : Str) :
    (rodadaPae02 h valor).polls = [⟨linhaPae02, ⟨h, .resposta fun _ => valor⟩⟩] := by
  have hlines : lines '\n' linhaPae02 = [linhaPae02] := by decide +kernel
  rw [Rodada.polls, idGetsnmp_rodadaPae02, hlines, List.mapIdx_singleton, rodadaPae02]

theorem completa_rodadaPae02 (h : Hora) (valor : Str) : (rodadaPae02 h valor).completa = true := by
  rw [Rodada.completa, polls_rodadaPae02]
  simp [Poll.falha]

def horaPae02 : Hora := ⟨⟨111, 4, 20, 1, 48, 2⟩, 1305866882⟩

theorem publica_pae02 : (rodadaPae02 horaPae02 "1".toList).Limpa ∧
    (lines '\n' (getInt (rodadaPae02 horaPae02 "1".toList) ⟨[], []⟩).resGet).map
      (fun lin => field (split ';' lin) 12) = [chavePae02] := by
  have hlimpa : (rodadaPae02 horaPae02 "1".toList).Limpa :=
    limpa_rodadaPae02 _ ⟨by decide, by decide⟩
  have hkeys : (rodadaPae02 horaPae02 "1".toList).chaves = [chavePae02] := by decide +kernel
  refine ⟨hlimpa, ?_⟩
  rw [← hkeys]
  exact (getInt_publica [] _ ⟨[], []⟩ hlimpa).2.1 (completa_rodadaPae02 _ _)

end SnmpCollector.Snmp.GetInt
