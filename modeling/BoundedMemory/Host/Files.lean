import BoundedMemory.Segment.FileTree

/-!
The files that are usually found on a host.
-/

namespace BoundedMemory.Host

/-- The places with the given names in one directory. -/
def within (directory names : List String) : List (List String) :=
  names.map fun name => directory ++ [name]

/-- The number of the running process, as it stands in paths. -/
def processNumber : String := "4711"

def directories : List (List String) :=
  within [] [
    "boot", "dev", "etc", "home", "media", "mnt", "opt", "proc", "root", "run", "srv", "sys",
    "tmp", "usr", "var", "work"] ++
  within ["dev"] ["mqueue", "pts", "shm"] ++
  within ["etc"] [
    "alternatives", "apt", "cron.d", "cron.daily", "default", "dpkg", "init.d", "ld.so.conf.d",
    "logrotate.d", "opt", "pam.d", "profile.d", "security", "skel", "ssl"] ++
  within ["proc"] [
    "1", processNumber, "bus", "driver", "fs", "irq", "sys", "sysvipc", "tty"] ++
  ["1", processNumber].flatMap (fun process => within ["proc", process] [
    "attr", "fd", "fdinfo", "map_files", "net", "ns", "task"]) ++
  within ["proc", processNumber, "task"] [processNumber] ++
  within ["proc", "sys"] ["debug", "dev", "fs", "kernel", "net", "user", "vm"] ++
  within ["proc", "sys", "kernel"] ["keys", "random", "yama"] ++
  within ["run"] ["lock"] ++
  within ["sys"] [
    "block", "bus", "class", "dev", "devices", "firmware", "fs", "kernel", "module", "power"] ++
  within ["usr"] [
    "bin", "games", "include", "lib", "lib64", "libexec", "local", "sbin", "share", "src"] ++
  within ["usr", "lib"] ["apt", "dpkg", "x86_64-linux-gnu"] ++
  within ["usr", "local"] ["bin", "etc", "games", "include", "lib", "sbin", "share", "src"] ++
  within ["usr", "share"] [
    "bash-completion", "common-licenses", "doc", "dpkg", "info", "locale", "man", "misc",
    "zoneinfo"] ++
  within ["var"] ["backups", "cache", "lib", "local", "log", "mail", "opt", "spool", "tmp"] ++
  within ["var", "cache"] ["apt"] ++
  within ["var", "lib"] ["apt", "dpkg", "misc"] ++
  within ["var", "log"] ["apt"]

def files : List (List String) :=
  within ["dev"] ["full", "null", "ptmx", "random", "tty", "urandom", "zero"] ++
  within ["etc"] [
    "bash.bashrc", "environment", "fstab", "group", "gshadow", "host.conf", "hostname", "hosts",
    "issue", "issue.net", "ld.so.cache", "ld.so.conf", "login.defs", "motd", "nsswitch.conf",
    "pam.conf", "passwd", "profile", "resolv.conf", "shadow", "shells", "subgid", "subuid"] ++
  within ["proc"] [
    "buddyinfo", "cgroups", "cmdline", "consoles", "cpuinfo", "crypto", "devices", "diskstats",
    "execdomains", "filesystems", "interrupts", "iomem", "ioports", "kallsyms", "kcore", "kmsg",
    "loadavg", "locks", "meminfo", "misc", "modules", "pagetypeinfo", "partitions", "schedstat",
    "slabinfo", "softirqs", "stat", "swaps", "timer_list", "uptime", "version", "vmallocinfo",
    "vmstat", "zoneinfo"] ++
  ["1", processNumber].flatMap (fun process => within ["proc", process] [
    "auxv", "cgroup", "clear_refs", "cmdline", "comm", "coredump_filter", "cpuset", "environ",
    "exe", "gid_map", "io", "limits", "loginuid", "maps", "mem", "mountinfo", "mounts",
    "mountstats", "oom_adj", "oom_score", "oom_score_adj", "pagemap", "personality",
    "projid_map", "sched", "schedstat", "sessionid", "setgroups", "smaps", "smaps_rollup",
    "stack", "stat", "statm", "status", "syscall", "timers", "timerslack_ns", "uid_map",
    "wchan"]) ++
  within ["proc", processNumber, "fd"] ["0", "1", "2"] ++
  within ["proc", "sys", "kernel"] [
    "core_pattern", "domainname", "hostname", "msgmax", "msgmnb", "msgmni", "ostype",
    "osrelease", "panic", "pid_max", "sem", "shm_rmid_forced", "shmall", "shmmax", "shmmni",
    "sysrq", "threads-max", "version"] ++
  within ["proc", "sysvipc"] ["msg", "sem", "shm"] ++
  within ["usr", "bin"] [
    "awk", "basename", "bash", "cat", "chmod", "chown", "cp", "cut", "date", "dd", "df", "dir",
    "dirname", "echo", "env", "expr", "false", "find", "grep", "gzip", "head", "hostname", "id",
    "kill", "ln", "login", "ls", "mkdir", "mktemp", "more", "mount", "mv", "passwd", "perl",
    "printf", "ps", "pwd", "rm", "rmdir", "sed", "sh", "sleep", "sort", "stat", "su", "sync",
    "tail", "tar", "test", "touch", "tr", "true", "tty", "uname", "uniq", "wc", "which",
    "whoami", "xargs", "yes"] ++
  within ["usr", "lib"] ["os-release"]

/-- The part of the usual files on which answers can depend. -/
def fileTree : FileTree where
  directories
  files
  links := [
    (["bin"], ["usr", "bin"]),
    (["lib"], ["usr", "lib"]),
    (["lib64"], ["usr", "lib64"]),
    (["sbin"], ["usr", "sbin"]),
    (["dev", "fd"], ["proc", "self", "fd"]),
    (["dev", "stderr"], ["proc", "self", "fd", "2"]),
    (["dev", "stdin"], ["proc", "self", "fd", "0"]),
    (["dev", "stdout"], ["proc", "self", "fd", "1"]),
    (["etc", "mtab"], ["proc", "mounts"]),
    (["etc", "os-release"], ["usr", "lib", "os-release"]),
    (["proc", "mounts"], ["proc", "self", "mounts"]),
    (["proc", "net"], ["proc", "self", "net"]),
    (["proc", "1", "root"], []),
    (["proc", "self"], ["proc", processNumber]),
    (["proc", "thread-self"], ["proc", processNumber, "task", processNumber]),
    (["proc", processNumber, "cwd"], ["work"]),
    (["proc", processNumber, "root"], []),
    (["usr", "local", "man"], ["usr", "local", "share", "man"]),
    (["var", "lock"], ["run", "lock"]),
    (["var", "run"], ["run"])]
  home := ["work"]

end BoundedMemory.Host
