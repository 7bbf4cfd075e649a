/-!
# Help

The program explains itself when it is given no command. The text ends with an empty line.
-/

namespace TrafficStats

/-- What is printed when no command is given, line by line. -/
def helpLines : List String :=
  ["Per-uid and per-interface traffic statistics reader",
    "",
    "Usage: netstats [OPTIONS] [COMMAND]",
    "",
    "Commands:",
    "  detail          Dump per-(uid, tag, interface) records",
    "  dev             Dump per-interface records",
    "  uid             Total traffic of one uid, or \"all\"",
    "  iface           Total traffic of an interface name",
    "  ifindex         Raw counters of one interface index",
    "  register-iface  Record an interface name so its traffic can be attributed",
    "  clean           Remove stale socket tag mappings once",
    "  watch           Periodically clean the tag map and print interface snapshots",
    "  help            Print this message or the help of the given subcommand(s)",
    "",
    "Options:",
    "  -c, --config <FILE>  Path to the JSON configuration file",
    "  -v, --verbose        Enable debug logging",
    "  -h, --help           Print help",
    ""]

end TrafficStats
