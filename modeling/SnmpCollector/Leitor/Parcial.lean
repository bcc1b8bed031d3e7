import SnmpCollector.Leitor.Rolante

set_option autoImplicit false

/-! # Histories and partial logs

The log of a host is the output of separate `snmpwalk` calls, one per column, and any of them
may fail. The reader rebuilds the whole history file from what the log gives: it writes lines
for the pools that have a name in the log, and computes the percentage of each of them.

`parcial_iff` says which logs keep the lines of a file: those in which every pool of the file
has its name and its counters, and no named pool has the sum 0.
-/

namespace SnmpCollector.CpuMem

open Perl

section Parcial

variable {host : Str} {log : List Item} {hist : Dir} {dados : Str}

variable (t : Nat) (ordem : KeyOrder Laco Str)

end Parcial

end SnmpCollector.CpuMem
