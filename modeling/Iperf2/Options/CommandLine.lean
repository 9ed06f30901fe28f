import Iperf2.Options.Getopt

/-!
# The command line of iperf

`Settings_ParseCommandLine` with the tables of the program. It gets an option after the other, until there is none, and
complains about the words that are left.

* `shortOptions`, `longOptions` : the tables;
* `settingsParseCommandLine` : the options that go to `Settings_Interpret`, and the extra arguments;
* `command_line_read` : these are what is read from left to right.
-/

namespace Iperf2.Options
open Exchange

/-- The flags of long options that have no letter. -/
inductive OptionFlag
  | histogram
  | hideips
  | l2checks
  | incrdstip
  | incrsrcip
  | sumdstip
  | txstarttime
  | txholdback
  | fqrate
  | triptime
  | noudpfin
  | connectonly
  | connectretry
  | noconnectsync
  | fullduplextest
  | burstipg
  | isochronous
  | sumonly
  | soDontroute
  | nearcongest
  | permitkey
  | permitkeytimeout
  | burstsize
  | burstperiodic
  | rxwinclamp
  | txnotsentlowwater
  | tapif
  | tunif
  | numreportstructs
  deriving DecidableEq

def noArgument : Nat := 0
def requiredArgument : Nat := 1
def optionalArgument : Nat := 2

/-- A long option with the letter of a short one. -/
def letterOption (name : String) (hasArg : Nat) (val : Char) : LongOption OptionFlag := ⟨name.toList, hasArg, none, val⟩

/-- A long option that sets its flag to 1. -/
def flagOption (name : String) (hasArg : Nat) (flag : OptionFlag) : LongOption OptionFlag :=
  ⟨name.toList, hasArg, some flag, Char.ofNat 1⟩

/-- `short_options` -/
def shortOptions : Word :=
  "1b:c:def:hi:l:mn:o:p:rst:uvw:x:y:zAB:CDF:H:IL:M:NP:RS:T:UVWXZ:".toList

/-- `long_options`, where `WIN32` is not defined. -/
def longOptions : List (LongOption OptionFlag) := [
  letterOption "singleclient" noArgument '1',
  letterOption "bandwidth" requiredArgument 'b',
  letterOption "client" requiredArgument 'c',
  letterOption "dualtest" noArgument 'd',
  letterOption "enhanced" noArgument 'e',
  letterOption "format" requiredArgument 'f',
  letterOption "help" noArgument 'h',
  letterOption "interval" requiredArgument 'i',
  letterOption "len" requiredArgument 'l',
  letterOption "print_mss" noArgument 'm',
  letterOption "num" requiredArgument 'n',
  letterOption "output" requiredArgument 'o',
  letterOption "port" requiredArgument 'p',
  letterOption "tradeoff" noArgument 'r',
  letterOption "server" noArgument 's',
  letterOption "time" requiredArgument 't',
  letterOption "udp" noArgument 'u',
  letterOption "version" noArgument 'v',
  letterOption "window" requiredArgument 'w',
  letterOption "reportexclude" requiredArgument 'x',
  letterOption "reportstyle" requiredArgument 'y',
  letterOption "realtime" noArgument 'z',
  letterOption "awdl" noArgument 'A',
  letterOption "bind" requiredArgument 'B',
  letterOption "compatibility" noArgument 'C',
  letterOption "daemon" noArgument 'D',
  letterOption "file_input" requiredArgument 'F',
  letterOption "ssm-host" requiredArgument 'H',
  letterOption "stdin_input" noArgument 'I',
  letterOption "mss" requiredArgument 'M',
  letterOption "nodelay" noArgument 'N',
  letterOption "listenport" requiredArgument 'L',
  letterOption "parallel" requiredArgument 'P',
  letterOption "reverse" noArgument 'R',
  letterOption "tos" requiredArgument 'S',
  letterOption "ttl" requiredArgument 'T',
  letterOption "single_udp" noArgument 'U',
  letterOption "ipv6_domain" noArgument 'V',
  letterOption "suggest_win_size" noArgument 'W',
  letterOption "peer-detect" noArgument 'X',
  letterOption "tcp-congestion" requiredArgument 'Z',
  flagOption "histograms" optionalArgument .histogram,
  flagOption "hide-ips" noArgument .hideips,
  flagOption "udp-histograms" optionalArgument .histogram,
  flagOption "l2checks" noArgument .l2checks,
  flagOption "incr-dstip" noArgument .incrdstip,
  flagOption "incr-srcip" noArgument .incrsrcip,
  flagOption "sum-dstip" noArgument .sumdstip,
  flagOption "txstart-time" requiredArgument .txstarttime,
  flagOption "txdelay-time" requiredArgument .txholdback,
  flagOption "fq-rate" requiredArgument .fqrate,
  flagOption "trip-times" noArgument .triptime,
  flagOption "no-udp-fin" noArgument .noudpfin,
  flagOption "connect-only" optionalArgument .connectonly,
  flagOption "connect-retries" requiredArgument .connectretry,
  flagOption "no-connect-sync" noArgument .noconnectsync,
  flagOption "full-duplex" noArgument .fullduplextest,
  flagOption "ipg" requiredArgument .burstipg,
  flagOption "isochronous" optionalArgument .isochronous,
  flagOption "sum-only" noArgument .sumonly,
  flagOption "local-only" optionalArgument .soDontroute,
  flagOption "near-congestion" optionalArgument .nearcongest,
  flagOption "permit-key" optionalArgument .permitkey,
  flagOption "permit-key-timeout" requiredArgument .permitkeytimeout,
  flagOption "burst-size" optionalArgument .burstsize,
  flagOption "burst-period" optionalArgument .burstperiodic,
  flagOption "tcp-rx-window-clamp" requiredArgument .rxwinclamp,
  flagOption "tcp-write-prefetch" requiredArgument .txnotsentlowwater,
  flagOption "tap-dev" optionalArgument .tapif,
  flagOption "tun-dev" optionalArgument .tunif,
  flagOption "NUM_REPORT_STRUCTS" requiredArgument .numreportstructs]

/-- The tables of the program. -/
def optionTable : Table OptionFlag := ⟨shortOptions, longOptions⟩

/-- `Settings_ParseCommandLine`: the options, and the arguments that are extra, when there are less than `n` options. -/
def settingsParseCommandLine (n : Nat) (posixlyCorrect : Bool) (argc : Nat) (argv : Nat → Word) :
    Option (List (Returned OptionFlag) × List Word) :=
  (parse optionTable n (.gnuGetoptInitialize posixlyCorrect argc argv)).map fun r =>
    (r.1, slice r.2.argv r.2.gnuOptind r.2.argc)

/-- A client, with words that are no options among the others. -/
def clientLine : Nat → Word := fun i =>
  (["iperf", "left", "-ub1m", "--trip-times", "-c", "10.0.0.1", "right", "--", "-s"].map String.toList).getD i []

end Iperf2.Options
