import XdxContainer.Data.Except
import XdxContainer.Mount.Options
import XdxContainer.Text.Numerals

/-!
# Cli/ConfigureParser — the options of `configure`, and the pid that means none

    --pid 1234  ──strToPid──▸ 1234   0 < pid       1234        "… supervised"
                                        ⋮     ─▸
    --pid 0     ──strToPid──▸ 0      pid ≤ 0       getppid()   "… standalone"

`argp_parse` calls `configure_parser` for each option, and once more behind the last one; there the
sign of the pid tells whether one was given.  `str_to_pid` lets zero and negative numbers through.

* `strToPid_ok_iff` — the numbers that are accepted, and what they are read as.
* `argpParse_ok` — what a run that is not rejected leaves of the pid and of the flags.
* `argpParse_keepsPid_iff` — a pid that was given is kept exactly when it is positive.
-/

open Paths Scan

namespace Cli

/-! ## The pid -/

/-- `pid_t`. -/
abbrev Pid := BitVec 32

/-- What `errno` is set to on the way to an input error. -/
inductive InputErrno
  | EINVAL | ERANGE | ENOMEM
  deriving DecidableEq, Repr

/-- `struct error`, as `error_set` and `error_setx` leave it. -/
inductive InputError
  | set (msg : String) (errno : InputErrno)
  | setx (msg : String)
  deriving DecidableEq, Repr

/-- `str_to_pid`. -/
def strToPid (str : Str) : Except InputError Pid :=
  let n := (strtoimax str).1
  let ptr := (strtoimax str).2
  if ptr = str ∨ ptr ≠ [] then .error (.set "parse pid failed" .EINVAL)
  else if n = INTMAX_MIN ∨ n = INTMAX_MAX ∨ n ≠ (BitVec.ofInt 32 n).toInt then
    .error (.set "parse pid failed" .ERANGE)
  else .ok (BitVec.ofInt 32 n)

/-- **The string is a decimal number**, white space and a sign in front of it allowed. -/
def Spells (str : Str) (n : ℤ) : Prop :=
  ∃ sp sg run, Scanned str sp sg run []
    ∧ n = if sg = ['-'] then -(value 10 run : ℤ) else value 10 run

/-- A number within the bounds is not cut. -/
theorem toSigned_of_lt {neg : Bool} {n : ℕ} (hn : n < 2 ^ 63) :
    toSigned neg n = if neg then -(n : ℤ) else n := by
  rw [toSigned, if_neg (Nat.not_lt_of_gt hn), if_neg (Nat.not_le_of_gt hn)]

/-- A number that is not one of the bounds has not been cut. -/
theorem lt_of_toSigned {neg : Bool} {n : ℕ} (hmin : toSigned neg n ≠ INTMAX_MIN)
    (hmax : toSigned neg n ≠ INTMAX_MAX) : n < 2 ^ 63 := by
  rw [toSigned] at hmin hmax
  by_contra hlarge
  rcases neg with _ | _
  · rw [if_neg Bool.false_ne_true, if_pos (by omega)] at hmax
    exact hmax rfl
  · rw [if_pos rfl] at hmin
    split_ifs at hmin with hcut
    · exact hmin rfl
    · obtain rfl : n = 2 ^ 63 := by omega
      exact hmin rfl

theorem toInt_range (pid : Pid) : -2147483648 ≤ pid.toInt ∧ pid.toInt < 2147483648 :=
  ⟨BitVec.le_toInt pid, BitVec.toInt_lt⟩

theorem toInt_ne_bounds (pid : Pid) : pid.toInt ≠ INTMAX_MIN ∧ pid.toInt ≠ INTMAX_MAX := by
  obtain ⟨hlow, hhigh⟩ := toInt_range pid
  have hmin : INTMAX_MIN = -9223372036854775808 := rfl
  have hmax : INTMAX_MAX = 9223372036854775807 := rfl
  constructor
  · omega
  · omega

/-- What is read as a pid is the number that is spelled. -/
theorem toSigned_eq_toInt_iff {sg run : Str} {pid : Pid} :
    toSigned (decide (sg = ['-'])) (value 10 run) = pid.toInt
      ↔ (if sg = ['-'] then -(value 10 run : ℤ) else value 10 run) = pid.toInt := by
  constructor
  · intro h
    obtain ⟨hmin, hmax⟩ := toInt_ne_bounds pid
    rw [← h, toSigned_of_lt (lt_of_toSigned (h ▸ hmin) (h ▸ hmax))]
    simp only [decide_eq_true_eq]
  · intro h
    obtain ⟨hlow, hhigh⟩ := toInt_range pid
    have hlt : value 10 run < 2 ^ 63 := by
      split_ifs at h <;> omega
    rw [toSigned_of_lt hlt, ← h]
    simp only [decide_eq_true_eq]

/-- **The numbers `str_to_pid` accepts** are those of a `pid_t`, and it reads them as they are
written. -/
theorem strToPid_ok_iff {str : Str} {pid : Pid} :
    strToPid str = .ok pid ↔ Spells str pid.toInt := by
  constructor
  · intro h
    simp only [strToPid] at h
    split_ifs at h with hread hrange
    obtain ⟨hne, hend⟩ := not_or.mp hread
    rw [not_not] at hend
    obtain ⟨-, hrange⟩ := not_or.mp hrange
    have hfits := not_not.mp (not_or.mp hrange).2
    rw [Except.ok.inj h] at hfits
    obtain ⟨sp, sg, run, hscan, hvalue⟩ := strtoimax_scanned hne
    rw [hend] at hscan
    rw [hvalue] at hfits
    exact ⟨sp, sg, run, hscan, (toSigned_eq_toInt_iff.mp hfits).symm⟩
  · rintro ⟨sp, sg, run, hscan, hn⟩
    have hread := hscan.strtoimax
    rw [toSigned_eq_toInt_iff.mpr hn.symm] at hread
    have hne : ¬([] = str ∨ ([] : Str) ≠ []) := by
      rintro (rfl | hnil)
      · have hsplit := hscan.split
        rw [List.append_nil, eq_comm, List.append_eq_nil_iff, List.append_eq_nil_iff] at hsplit
        exact hscan.numeral.1 hsplit.2.2
      · exact hnil rfl
    have hrange : ¬(pid.toInt = INTMAX_MIN ∨ pid.toInt = INTMAX_MAX ∨ pid.toInt ≠ pid.toInt) := by
      rintro (hmin | hmax | hself)
      · exact (toInt_ne_bounds pid).1 hmin
      · exact (toInt_ne_bounds pid).2 hmax
      · exact hself rfl
    simp only [strToPid, hread]
    rw [BitVec.ofInt_toInt, if_neg hne, if_neg hrange]

/-- A string spells one number. -/
theorem eq_toInt_of_spells {str : Str} {pid : Pid} {n : ℤ} (hpid : strToPid str = .ok pid)
    (hn : Spells str n) : n = pid.toInt := by
  obtain ⟨sp, sg, run, hscan, hvalue⟩ := strToPid_ok_iff.mp hpid
  obtain ⟨sp', sg', run', hscan', rfl⟩ := hn
  have hread := (congrArg Prod.fst hscan'.strtoimax).symm.trans (congrArg Prod.fst hscan.strtoimax)
  exact toSigned_eq_toInt_iff.mp (hread.trans (toSigned_eq_toInt_iff.mpr hvalue.symm))

/-! ## The parser -/

/-- `nitems(ctx->reqs)`. -/
def REQS_MAX : ℕ := 32

/-- What `configure_parser` sets of `struct context`; `reqs` are the first `nreqs` elements of the
array. -/
structure Context where
  pid : Pid
  rootfs : Option Str
  reqs : List Str
  ldconfig : Option Str
  containerFlags : Option Str
  devices : Option Str
  migConfig : Option Str
  migMonitor : Option Str
  nreqs_le : reqs.length ≤ REQS_MAX

/-- The context `main` starts with. -/
def Context.new : Context where
  pid := 0
  rootfs := none
  reqs := []
  ldconfig := none
  containerFlags := none
  devices := none
  migConfig := none
  migMonitor := none
  nreqs_le := Nat.zero_le _

/-- What is given on the command line, as the keys of `configure_usage`: the options, and `ROOTFS`
(`ARGP_KEY_ARG`). -/
inductive Given
  | pid (arg : Str)
  | device (arg : Str)
  | require (arg : Str)
  | ldconfig (arg : Str)
  | compute | utility | video | graphics | display | ngx | compat32
  | migConfig (arg : Str)
  | migMonitor (arg : Str)
  | noCgroups | noDevbind
  | rootfs (arg : Str)

/-- The keys `configure_parser` knows. -/
inductive Key
  | given (g : Given)
  | ARGP_KEY_SUCCESS
  | ARGP_KEY_END

/-- How the command line is rejected: by `errx`, or by `argp_usage`. -/
inductive Rejection
  | inputError (err : InputError)
  | usage
  deriving DecidableEq, Repr

/-- What the parser asks for: the library's major version, and the parent process. -/
structure ParserEnv where
  major : ℕ
  getppid : Pid

/-- `str_join` in the parser. -/
def joined (realloc : ℕ → Bool) (s1 : Option Str) (s2 sep : Str) : Except Rejection (Option Str) :=
  match Mount.strJoin realloc s1 s2 sep with
  | some s => .ok (some s)
  | none => .error (.inputError (.set "memory allocation failed" .ENOMEM))

/-- A flag is joined to the container's. -/
def addFlag (realloc : ℕ → Bool) (ctx : Context) (flag : String) : Except Rejection Context := do
  return { ctx with containerFlags := ← joined realloc ctx.containerFlags flag.toList [' '] }

/-- The option `--require`. -/
def addRequirement (ctx : Context) (arg : Str) : Except Rejection Context :=
  if h : ctx.reqs.length ≥ REQS_MAX then .error (.inputError (.setx "too many requirements"))
  else .ok { ctx with
    reqs := ctx.reqs ++ [arg]
    nreqs_le := by
      rw [List.length_append, List.length_singleton]
      omega }

/-- `configure_parser`, with `arg_num` arguments behind it. -/
def configureParser (env : ParserEnv) (realloc : ℕ → Bool) (argNum : ℕ) (ctx : Context) :
    Key → Except Rejection Context
  | .given (.pid arg) =>
    match strToPid arg with
    | .ok pid => .ok { ctx with pid }
    | .error err => .error (.inputError err)
  | .given (.device arg) => do
    return { ctx with devices := ← joined realloc ctx.devices arg [','] }
  | .given (.require arg) =>
    if env.major = 0 ∧ arg.take 14 = "csv-mounts=all".toList then
      addFlag realloc ctx "jetpack-mount-all"
    else if env.major = 0 ∧ arg.take 9 = "base-only".toList then
      addFlag realloc ctx "jetpack-base-only"
    else addRequirement ctx arg
  | .given (.ldconfig arg) => .ok { ctx with ldconfig := some arg }
  | .given .compute => addFlag realloc ctx "compute"
  | .given .utility => addFlag realloc ctx "utility"
  | .given .video => addFlag realloc ctx "video"
  | .given .graphics => addFlag realloc ctx "graphics"
  | .given .display => addFlag realloc ctx "display"
  | .given .ngx => if env.major = 0 then .ok ctx else addFlag realloc ctx "ngx"
  | .given .compat32 => addFlag realloc ctx "compat32"
  | .given (.migConfig arg) => do
    return { ctx with migConfig := ← joined realloc ctx.migConfig arg [','] }
  | .given (.migMonitor arg) => do
    return { ctx with migMonitor := ← joined realloc ctx.migMonitor arg [','] }
  | .given .noCgroups => addFlag realloc ctx "no-cgroups"
  | .given .noDevbind => addFlag realloc ctx "no-devbind"
  | .given (.rootfs arg) =>
    if argNum > 0 then .error .usage
    else if arg.head? ≠ some '/' ∨ arg = ['/'] then
      .error (.inputError (.setx "invalid rootfs directory"))
    else .ok { ctx with rootfs := some arg }
  | .ARGP_KEY_SUCCESS =>
    if BitVec.slt 0 ctx.pid then addFlag realloc ctx "supervised"
    else addFlag realloc { ctx with pid := env.getppid } "standalone"
  | .ARGP_KEY_END => if argNum < 1 then .error .usage else .ok ctx

/-- Something on the command line, and whether `realloc` has room when it is parsed. -/
structure Turn where
  given : Given
  realloc : ℕ → Bool

/-- `argp_parse` up to the end of the command line: the context, and the arguments counted. -/
def parseGiven (env : ParserEnv) : ℕ → Context → List Turn → Except Rejection (ℕ × Context)
  | argNum, ctx, [] => .ok (argNum, ctx)
  | argNum, ctx, turn :: turns => do
    let ctx ← configureParser env turn.realloc argNum ctx (.given turn.given)
    match turn.given with
    | .rootfs _ => parseGiven env (argNum + 1) ctx turns
    | _ => parseGiven env argNum ctx turns

/-- `argp_parse` with `configure_usage`. -/
def argpParse (env : ParserEnv) (turns : List Turn) (realloc : ℕ → Bool) :
    Except Rejection Context := do
  let (argNum, ctx) ← parseGiven env 0 .new turns
  let ctx ← configureParser env realloc argNum ctx .ARGP_KEY_END
  configureParser env realloc argNum ctx .ARGP_KEY_SUCCESS

/-! ## What a run leaves -/

/-- The words of the container's flags. -/
def Context.flags (ctx : Context) : List Str := Mount.spaced (ctx.containerFlags.getD [])

/-- The flags that say whose pid it is. -/
def IsMode (word : Str) : Prop := word = "supervised".toList ∨ word = "standalone".toList

instance (word : Str) : Decidable (IsMode word) := inferInstanceAs (Decidable (_ ∨ _))

/-- The argument of `--pid` and its value, if it is accepted. -/
def acceptedPid : Given → Option (Str × Pid)
  | .pid arg => (strToPid arg).toOption.map fun pid => (arg, pid)
  | _ => none

/-- The arguments of `--pid` that are accepted, in their order. -/
def acceptedPids (turns : List Turn) : List (Str × Pid) := turns.filterMap (acceptedPid ·.given)

/-- The last of them. -/
def lastPid (turns : List Turn) : Option Pid := (acceptedPids turns).getLast?.map Prod.snd

section Run

variable {env : ParserEnv} {realloc : ℕ → Bool} {argNum argNum' : ℕ} {ctx ctx' : Context}
  {g : Given} {turns : List Turn}

theorem joined_ok {s1 s : Option Str} {s2 sep : Str} (h : joined realloc s1 s2 sep = .ok s) :
    ∃ str, s = some str ∧ Mount.strJoin realloc s1 s2 sep = some str := by
  rw [joined] at h
  split at h
  · next str hstr => exact ⟨str, (Except.ok.inj h).symm, hstr⟩
  · cases h

/-- A flag is added behind the ones there are. -/
theorem addFlag_ok {flag : String} (h : addFlag realloc ctx flag = .ok ctx') :
    ctx'.pid = ctx.pid ∧ ctx'.flags = ctx.flags ++ Mount.spaced flag.toList := by
  obtain ⟨s, hjoined, h⟩ := Except.bind_eq_ok h
  obtain ⟨str, rfl, hstr⟩ := joined_ok hjoined
  rw [← Except.ok.inj h]
  exact ⟨rfl, Mount.spaced_strJoin hstr⟩

/-- No mode is among the flags. -/
def Context.Plain (ctx : Context) : Prop := ∀ word ∈ ctx.flags, ¬IsMode word

/-- What an option leaves that is not `--pid`: the pid, and flags without a mode. -/
structure Kept (ctx ctx' : Context) : Prop where
  pid : ctx'.pid = ctx.pid
  plain : ctx.Plain → ctx'.Plain

/-- A flag changes neither the pid nor the mode. -/
theorem Kept.of_flag {flag : String} (h : addFlag realloc ctx flag = .ok ctx')
    (hflag : (Mount.spaced flag.toList).all (¬IsMode ·) = true) : Kept ctx ctx' := by
  obtain ⟨hpid, hflags⟩ := addFlag_ok h
  refine ⟨hpid, fun hplain word hword => ?_⟩
  rw [hflags] at hword
  rcases List.mem_append.mp hword with hold | hnew
  · exact hplain word hold
  · exact of_decide_eq_true (List.all_eq_true.mp hflag word hnew)

theorem Kept.of_requirement {arg : Str} (h : addRequirement ctx arg = .ok ctx') :
    Kept ctx ctx' := by
  rw [addRequirement] at h
  split_ifs at h
  rw [← Except.ok.inj h]
  exact ⟨rfl, id⟩

/-- **What is given leaves the pid and the flags as they are**, but for an accepted pid, and for
flags that are no mode. -/
theorem configureParser_given (h : configureParser env realloc argNum ctx (.given g) = .ok ctx') :
    ctx'.pid = ((acceptedPid g).map Prod.snd).getD ctx.pid ∧ (ctx.Plain → ctx'.Plain) := by
  have of_kept (hg : acceptedPid g = none) (hkept : Kept ctx ctx') :
      ctx'.pid = ((acceptedPid g).map Prod.snd).getD ctx.pid ∧ (ctx.Plain → ctx'.Plain) := by
    rw [hg]
    exact ⟨hkept.pid, hkept.plain⟩
  cases g with
  | pid arg =>
    simp only [configureParser] at h
    split at h
    · next pid hpid =>
      rw [acceptedPid, hpid, ← Except.ok.inj h]
      exact ⟨rfl, id⟩
    · cases h
  | device | migConfig | migMonitor =>
    obtain ⟨s, -, h⟩ := Except.bind_eq_ok h
    rw [← Except.ok.inj h]
    exact ⟨rfl, id⟩
  | require arg =>
    simp only [configureParser] at h
    split_ifs at h
    · exact of_kept rfl (.of_flag h (by decide))
    · exact of_kept rfl (.of_flag h (by decide))
    · exact of_kept rfl (.of_requirement h)
  | ldconfig arg =>
    rw [← Except.ok.inj h]
    exact ⟨rfl, id⟩
  | ngx =>
    simp only [configureParser] at h
    split_ifs at h
    · rw [← Except.ok.inj h]
      exact ⟨rfl, id⟩
    · exact of_kept rfl (.of_flag h (by decide))
  | rootfs arg =>
    simp only [configureParser] at h
    split_ifs at h
    rw [← Except.ok.inj h]
    exact ⟨rfl, id⟩
  | _ => exact of_kept rfl (.of_flag h (by decide))

/-- The last pid is given by the last turn that has one. -/
theorem lastPid_cons (turn : Turn) (turns : List Turn) (pid : Pid) :
    (lastPid (turn :: turns)).getD pid
      = (lastPid turns).getD (((acceptedPid turn.given).map Prod.snd).getD pid) := by
  rw [lastPid, acceptedPids, List.filterMap_cons]
  rcases hg : acceptedPid turn.given with _ | ⟨arg, given⟩
  · rfl
  · rw [← acceptedPids, List.getLast?_cons, lastPid]
    rcases (acceptedPids turns).getLast? with _ | last
    · rfl
    · rfl

/-- **What the command line does**: the last pid that is accepted is the one that is left. -/
theorem parseGiven_ok (h : parseGiven env argNum ctx turns = .ok (argNum', ctx')) :
    ctx'.pid = (lastPid turns).getD ctx.pid ∧ (ctx.Plain → ctx'.Plain) := by
  induction turns generalizing argNum ctx with
  | nil =>
    obtain ⟨-, rfl⟩ := Prod.mk.inj (Except.ok.inj h)
    exact ⟨rfl, id⟩
  | cons turn turns ih =>
    obtain ⟨ctx₁, hturn, h⟩ := Except.bind_eq_ok h
    obtain ⟨hpid₁, hplain₁⟩ := configureParser_given hturn
    obtain ⟨n, hrest⟩ : ∃ n, parseGiven env n ctx₁ turns = .ok (argNum', ctx') := by
      split at h
      · exact ⟨_, h⟩
      · exact ⟨_, h⟩
    obtain ⟨hpid, hplain⟩ := ih hrest
    refine ⟨?_, fun hnone => hplain (hplain₁ hnone)⟩
    rw [hpid, hpid₁, lastPid_cons]

theorem slt_zero_iff (pid : Pid) : BitVec.slt 0 pid = true ↔ 0 < pid.toInt := by
  rw [BitVec.slt, decide_eq_true_iff]
  exact Iff.rfl

/-- **What a run leaves that is not rejected**: the last pid that was accepted, if it is positive,
and the parent process otherwise. -/
theorem argpParse_ok (h : argpParse env turns realloc = .ok ctx) :
    (0 < ((lastPid turns).getD 0).toInt ∧ ctx.pid = (lastPid turns).getD 0
        ∧ "supervised".toList ∈ ctx.flags ∧ "standalone".toList ∉ ctx.flags)
      ∨ (((lastPid turns).getD 0).toInt ≤ 0 ∧ ctx.pid = env.getppid
        ∧ "standalone".toList ∈ ctx.flags ∧ "supervised".toList ∉ ctx.flags) := by
  obtain ⟨⟨argNum, ctx₁⟩, hgiven, h⟩ := Except.bind_eq_ok h
  obtain ⟨ctx₂, hend, hsuccess⟩ := Except.bind_eq_ok h
  obtain ⟨hpid, hplain⟩ := parseGiven_ok hgiven
  replace hplain := hplain nofun
  -- the end of the command line changes nothing
  obtain rfl : ctx₁ = ctx₂ := by
    simp only [configureParser] at hend
    split_ifs at hend
    exact Except.ok.inj hend
  have hpid : ctx₁.pid = (lastPid turns).getD 0 := hpid
  have hsup : "supervised".toList ∉ ctx₁.flags := fun hmem => hplain _ hmem (.inl rfl)
  have hsta : "standalone".toList ∉ ctx₁.flags := fun hmem => hplain _ hmem (.inr rfl)
  simp only [configureParser] at hsuccess
  rw [← hpid]
  split_ifs at hsuccess with hpos
  · obtain ⟨hkept, hflags⟩ := addFlag_ok hsuccess
    refine .inl ⟨(slt_zero_iff _).mp hpos, hkept, ?_, ?_⟩
    · rw [hflags]
      exact List.mem_append_right _ (by decide)
    · rw [hflags]
      exact fun hmem => (List.mem_append.mp hmem).elim hsta (by decide)
  · obtain ⟨hkept, hflags⟩ := addFlag_ok hsuccess
    have hflags : ctx.flags = ctx₁.flags ++ Mount.spaced "standalone".toList := hflags
    refine .inr ⟨Int.not_lt.mp fun hlt => hpos ((slt_zero_iff _).mpr hlt), hkept, ?_, ?_⟩
    · rw [hflags]
      exact List.mem_append_right _ (by decide)
    · rw [hflags]
      exact fun hmem => (List.mem_append.mp hmem).elim hsup (by decide)

/-- The pid of the context is the given one, and the flags say so. -/
def KeepsPid (ctx : Context) (pid : Pid) : Prop :=
  ctx.pid = pid ∧ "supervised".toList ∈ ctx.flags ∧ "standalone".toList ∉ ctx.flags

/-- **A pid that was given is kept exactly when it is positive.** -/
theorem argpParse_keepsPid_iff {arg : Str} {pid : Pid}
    (hrun : argpParse env turns realloc = .ok ctx)
    (hlast : (arg, pid) ∈ (acceptedPids turns).getLast?) :
    KeepsPid ctx pid ↔ ∃ n > 0, Spells arg n := by
  have hlastPid : (lastPid turns).getD 0 = pid := by
    rw [lastPid, Option.mem_def.mp hlast]
    rfl
  have hpid : strToPid arg = .ok pid := by
    obtain ⟨turn, -, hturn⟩ := List.mem_filterMap.mp (List.mem_of_mem_getLast? hlast)
    unfold acceptedPid at hturn
    split at hturn
    · obtain ⟨pid', hpid', heq⟩ := Option.map_eq_some_iff.mp hturn
      obtain ⟨rfl, rfl⟩ := Prod.mk.inj heq
      exact Except.toOption_eq_some hpid'
    · cases hturn
  have hpositive : (∃ n > 0, Spells arg n) ↔ 0 < pid.toInt := by
    constructor
    · rintro ⟨n, hn, hspells⟩
      rwa [← eq_toInt_of_spells hpid hspells]
    · exact fun hpos => ⟨pid.toInt, hpos, strToPid_ok_iff.mp hpid⟩
  rw [hpositive]
  rcases argpParse_ok hrun with ⟨hpos, hkept, hsup, hsta⟩ | ⟨hneg, -, -, hsup⟩
  · rw [hlastPid] at hpos hkept
    exact iff_of_true ⟨hkept, hsup, hsta⟩ hpos
  · rw [hlastPid] at hneg
    exact iff_of_false (fun h => hsup h.2.1) (Int.not_lt.mpr hneg)

end Run

/-- A native library, and a parent process. -/
def nativeEnv : ParserEnv where
  major := 1
  getppid := 77

/-- Options and `ROOTFS`, with memory for everything. -/
def commandLine (options : List Given) : List Turn :=
  (options ++ [Given.rootfs "/c".toList]).map fun g => ⟨g, fun _ => true⟩

/-- The second of two pids, with white space in front of it. -/
theorem argpParse_keepsPid_second :
    ∃ ctx, argpParse nativeEnv (commandLine [.pid "5".toList, .compute, .pid " 1234".toList])
        (fun _ => true) = .ok ctx ∧ KeepsPid ctx 1234 := by
  set turns := commandLine [.pid "5".toList, .compute, .pid " 1234".toList] with hturns
  have hrun : argpParse nativeEnv turns (fun _ => true) = .ok { Context.new with
      pid := 1234
      rootfs := some "/c".toList
      containerFlags := some "compute supervised".toList } := rfl
  have hlast : (" 1234".toList, 1234) ∈ (acceptedPids turns).getLast? := rfl
  refine ⟨_, hrun, (argpParse_keepsPid_iff hrun hlast).mpr ⟨1234, by decide, ?_⟩⟩
  exact ⟨[' '], [], "1234".toList, ⟨rfl, List.forall_mem_singleton.mpr rfl, .inl rfl, by decide,
    nofun⟩, rfl⟩

/-- The pid 0 is replaced by the parent process. -/
theorem not_keepsPid_zero :
    ¬∀ (env : ParserEnv) (turns : List Turn) (realloc : ℕ → Bool) (ctx : Context) (arg : Str)
      (pid : Pid), argpParse env turns realloc = .ok ctx →
        (arg, pid) ∈ (acceptedPids turns).getLast? → KeepsPid ctx pid := by
  intro h
  have hrun : argpParse nativeEnv (commandLine [.pid "0".toList]) (fun _ => true)
      = .ok { Context.new with
        pid := 77
        rootfs := some "/c".toList
        containerFlags := some "standalone".toList } := rfl
  have hkept := h nativeEnv _ _ _ "0".toList 0 hrun rfl
  exact absurd hkept.1 (by decide)

end Cli
