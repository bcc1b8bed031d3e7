import SnmpCollector.Walk.IfDescr
import SnmpCollector.Leitor.Enderecos
import SnmpCollector.Leitor.Escolha
import SnmpCollector.Leitor.Nomes
import SnmpCollector.Leitor.Erros
import SnmpCollector.Leitor.Chaves
import SnmpCollector.Leitor.Parcial
import SnmpCollector.Leitor.Pools
import SnmpCollector.Leitor.Tabelas
import SnmpCollector.Leitor.Maior
import SnmpCollector.Leitor.DataAlm
import SnmpCollector.Leitor.Totais
import SnmpCollector.Leitor.Atribuicao
import SnmpCollector.Snmp.GetInt
import SnmpCollector.Snmp.Layouts
import SnmpCollector.Snmp.Mudanca
import SnmpCollector.Snmp.Percentual
import SnmpCollector.Snmp.Juncao
import SnmpCollector.Snmp.Tabelas
import SnmpCollector.Snmp.Arquivos
import SnmpCollector.Snmp.StatusCpu
import SnmpCollector.Scripts.StartCfg
import SnmpCollector.Walk.SegundoPlano
import SnmpCollector.Walk.AtualizaArq
import SnmpCollector.Leitor.SumarioCpuMem
import SnmpCollector.Leitor.Desde
import SnmpCollector.AtualizaBd.Concorrencia
import SnmpCollector.NetSnmp.Loop
import SnmpCollector.NetSnmp.Wire
import SnmpCollector.Snmp.Aparelhos
