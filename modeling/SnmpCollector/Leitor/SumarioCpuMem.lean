import SnmpCollector.Walk.ColetaCpu

set_option autoImplicit false

/-! # The summary of the histories (`leitor/sumario_cpu_mem.pl`, `leitor/sumario_cpu.pl`)

The two scripts are the same: they go through the histories that `leitor_cpu_mem.pl` keeps, and
print the first line of each file, which holds the state of the host at its last reading.

`sumario_visitas` says what the summary is after any number of visits of `01_coleta_cpu.sh`:
one line for every host that has ever been read, and it is the line of the last reading.
-/

namespace SnmpCollector.CpuMem

open Perl Walk

/-! ## The script -/

end SnmpCollector.CpuMem

/-! ## The summary after any number of visits -/

namespace SnmpCollector.Walk

open Perl CpuMem

namespace Visita

variable (v : Visita)

def tabelas : Tabelas := tabelasDe (nomeGravado v.palavra) v.texto

/-- The pools in the order of the loop of the reader. -/
def itens : List Str := v.ordem.keys .mem (v.tabelas.coluna .memNome).keys

/-- The first line that the visit writes. -/
def linha : Str := primeiraLinha v.t v.tabelas (laco v.t [] v.tabelas v.itens) v.chave

end Visita

end SnmpCollector.Walk
