import Dce.Lib.Parts
import Dce.Router.Protocol

/-!
# The command line protocol

The arguments of a command are the words of a path, assignments, flags that may
be followed by a value, and what is passed on behind a separator. What an
argument is taken for can depend on the next one.
-/

namespace Dce.Protocol

open Router Text

def passSeparator : Str := "--".toList
def pathSeparator : Char := '/'

inductive ArgType where
  | assignExpr (name value : Str)
  | prefixName
  | downFlowSeparator
  | path

abbrev Args := Std.ExtTreeMap Str Str

structure CliProtocol where
  info : Meta (List Str) Str
  pass : List Str
  args : Args

/-- What the arguments of a command are taken for. -/
structure Parsed where
  paths : List Str
  args : Args
  pass : List Str

namespace CliProtocol

def parseType (arg : Str) : ArgType :=
  match splitOnce '=' arg with
  | some (left, right) => .assignExpr left right
  | none =>
      if ['-'].isPrefixOf arg then
        if arg = passSeparator then .downFlowSeparator else .prefixName
      else .path

/-- Read the arguments that are left, after `paths` and `args` from those before. -/
def parse (paths : List Str) (args : Args) : List Str → Parsed
  | [] => { paths, args, pass := [] }
  | arg :: value =>
      match parseType arg with
      | .assignExpr name assigned => parse paths (args.insert name assigned) value
      | .prefixName =>
          match value with
          | [] => parse paths (args.insert arg []) []
          | next :: later =>
              match parseType next with
              | .path => parse paths (args.insert arg next) later
              | _ => parse paths (args.insert arg []) (next :: later)
      | .downFlowSeparator => { paths, args, pass := value }
      | .path => parse (paths ++ [arg]) args value

def ofArgs (value : List Str) : CliProtocol :=
  let parsed := parse [] ∅ value
  { info := .new [] ((∅ : Heads).insert headPathName (join pathSeparator parsed.paths))
    pass := parsed.pass
    args := parsed.args }

/-- The protocol of a process started with the arguments `raw`, behind the first `base`. -/
def new (raw : List Str) (base : Nat) : CliProtocol :=
  let cli := ofArgs (raw.drop base)
  { cli with info := { cli.info with req := some raw } }

def sid (self : CliProtocol) : Option Str := self.args["--sid".toList]?

end CliProtocol

/-- A word of a path. -/
structure PathWord where
  text : Str
  unassigned : '=' ∉ text
  undashed : text.head? ≠ some '-'

/-- The name that a value is assigned to. -/
structure AssignName where
  text : Str
  unassigned : '=' ∉ text

/-- A flag, which is not the separator in front of what is passed on. -/
structure FlagName where
  text : Str
  unassigned : '=' ∉ text
  dashed : text.head? = some '-'
  apart : text ≠ passSeparator

/-- The arguments that stay together in a command. -/
inductive Block where
  | word (part : PathWord)
  | assign (name : AssignName) (value : Str)
  | flag (name : FlagName) (value : PathWord)

namespace Block

def tokens : Block → List Str
  | .word part => [part.text]
  | .assign name value => [name.text ++ '=' :: value]
  | .flag name value => [name.text, value.text]

/-- The words of the path that a block adds. -/
def words : Block → List Str
  | .word part => [part.text]
  | .assign _ _ => []
  | .flag _ _ => []

/-- The arguments that a block gives by name. -/
def pairs : Block → List (Str × Str)
  | .word _ => []
  | .assign name value => [(name.text, value)]
  | .flag name value => [(name.text, value.text)]

end Block

/-- A command of blocks and, behind a separator, of what is passed on. -/
def commandOf (blocks : List Block) (pass : Option (List Str)) : List Str :=
  blocks.flatMap Block.tokens ++ pass.elim [] (passSeparator :: ·)

namespace CliProtocol

theorem parseType_word (word : PathWord) : parseType word.text = .path := by
  rcases word with ⟨text, unassigned, undashed⟩
  have undivided := splitOnce_eq_none.mpr unassigned
  cases text with
  | nil => rfl
  | cons c text =>
      have other : c ≠ '-' := by simpa using undashed
      simp [parseType, undivided, Ne.symm other]

theorem parseType_assign (name : AssignName) (value : Str) :
    parseType (name.text ++ '=' :: value) = .assignExpr name.text value := by
  simp [parseType, splitOnce_append name.unassigned]

theorem parseType_flag (name : FlagName) : parseType name.text = .prefixName := by
  rcases name with ⟨text, unassigned, dashed, apart⟩
  have undivided := splitOnce_eq_none.mpr unassigned
  cases text with
  | nil => cases dashed
  | cons c text =>
      have dash : c = '-' := by simpa using dashed
      subst dash
      simp [parseType, undivided, apart]

theorem parseType_passSeparator : parseType passSeparator = .downFlowSeparator := rfl

def insertAll (args : Args) (pairs : List (Str × Str)) : Args :=
  pairs.foldl (fun args pair => args.insert pair.1 pair.2) args

/-- The value of a name is the one given last. -/
theorem getElem?_insertAll (args : Args) (pairs : List (Str × Str)) (key : Str) :
    (insertAll args pairs)[key]? = (pairs.reverse.lookup key).or args[key]? := by
  induction pairs generalizing args with
  | nil => rfl
  | cons pair pairs ih =>
      have first := ih (args.insert pair.1 pair.2)
      rw [insertAll, List.foldl_cons, ← insertAll, first, List.reverse_cons, List.lookup_append,
        Option.or_assoc]
      congr 1
      rw [Std.ExtTreeMap.getElem?_insert]
      by_cases same : pair.1 = key
      · simp [same, List.lookup]
      · simp [same, List.lookup, beq_false_of_ne (Ne.symm same)]

theorem parse_block (paths : List Str) (args : Args) (block : Block) (value : List Str) :
    parse paths args (block.tokens ++ value) =
      parse (paths ++ block.words) (insertAll args block.pairs) value := by
  cases block with
  | word part =>
      simp only [Block.tokens, Block.words, Block.pairs, List.singleton_append]
      rw [parse.eq_def]
      simp only [parseType_word]
      rfl
  | assign name assigned =>
      simp only [Block.tokens, Block.words, Block.pairs, List.singleton_append, List.append_nil]
      rw [parse.eq_def]
      simp only [parseType_assign]
      rfl
  | flag name next =>
      simp only [Block.tokens, Block.words, Block.pairs, List.cons_append, List.nil_append,
        List.append_nil]
      rw [parse.eq_def]
      simp only [parseType_flag, parseType_word]
      rfl

theorem parse_blocks (paths : List Str) (args : Args) (blocks : List Block) (value : List Str) :
    parse paths args (blocks.flatMap Block.tokens ++ value) =
      parse (paths ++ blocks.flatMap Block.words) (insertAll args (blocks.flatMap Block.pairs))
        value := by
  induction blocks generalizing paths args with
  | nil => simp [insertAll]
  | cons block blocks ih =>
      rw [List.flatMap_cons, List.append_assoc, parse_block, ih]
      simp [insertAll, List.foldl_append]

theorem parse_pass (paths : List Str) (args : Args) (pass : Option (List Str)) :
    parse paths args (pass.elim [] (passSeparator :: ·)) =
      { paths, args, pass := pass.getD [] } := by
  cases pass with
  | none => rfl
  | some pass =>
      simp only [Option.elim_some, Option.getD_some]
      rw [parse.eq_def]
      simp only [parseType_passSeparator]

/-- Behind the first blocks of a command the arguments of the others are left. -/
theorem parse_commandOf_append (first later : List Block) (pass : Option (List Str)) :
    parse [] ∅ (commandOf (first ++ later) pass) =
      parse (first.flatMap Block.words) (insertAll ∅ (first.flatMap Block.pairs))
        (commandOf later pass) := by
  rw [commandOf, List.flatMap_append, List.append_assoc, parse_blocks, List.nil_append]
  rfl

theorem parse_commandOf (blocks : List Block) (pass : Option (List Str)) :
    parse [] ∅ (commandOf blocks pass) =
      { paths := blocks.flatMap Block.words
        args := insertAll ∅ (blocks.flatMap Block.pairs)
        pass := pass.getD [] } := by
  rw [commandOf, parse_blocks, parse_pass, List.nil_append]

/-- A command of blocks in any order is read as the path of its words, with the value last given
to each name, and passes on all that follows the separator. Each block is read once, and nothing
of those behind it with it. -/
theorem ofArgs_commandOf (blocks : List Block) (pass : Option (List Str)) :
    let cli := ofArgs (commandOf blocks pass)
    cli.info.path = join pathSeparator (blocks.flatMap Block.words) ∧
      (∀ key, cli.args[key]? = (blocks.flatMap Block.pairs).reverse.lookup key) ∧
      cli.pass = pass.getD [] ∧
      ∀ first later, blocks = first ++ later → parse [] ∅ (commandOf blocks pass) =
        parse (first.flatMap Block.words) (insertAll ∅ (first.flatMap Block.pairs))
          (commandOf later pass) := by
  have parsed := parse_commandOf blocks pass
  refine ⟨?_, ?_, ?_, ?_⟩
  · simp [ofArgs, parsed, Meta.path, Meta.new]
  · intro key
    have last := getElem?_insertAll ∅ (blocks.flatMap Block.pairs) key
    simpa [ofArgs, parsed] using last
  · simp [ofArgs, parsed]
  · intro first later parts
    rw [parts]
    exact parse_commandOf_append first later pass

end CliProtocol

end Dce.Protocol
