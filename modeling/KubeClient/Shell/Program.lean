import KubeClient.Shell.Condition
import KubeClient.Shell.Filter
import KubeClient.Shell.State

/-!
# Programs

The programs that scripts use, as far as they start no other ones.

* `Shell.Given` : the options and the operands that a program was given;
* `Shell.runProgram` : what a program does.
-/

namespace KubeClient.Shell

/-! ### Options -/

/-- The options that a program was given, with their values, and what else. -/
structure Given where
  options : List (Char × Text)
  operands : List Text
  deriving Inhabited

namespace Given

/-- An option was given. -/
def has (g : Given) (letter : Char) : Bool :=
  g.options.any (·.1 = letter)

/-- The value of an option, the last one if there are several. -/
def get? (g : Given) (letter : Char) : Option Text :=
  g.options.reverse.lookup letter

/-- The options of one argument, and the last one if its value is the next argument. -/
def cluster (flags valued : String) : Text → Except String (List (Char × Text) × Option Char)
  | [] => .ok ([], none)
  | c :: cs =>
    if valued.contains c then
      .ok (if cs.isEmpty then ([], some c) else ([(c, cs)], none))
    else if flags.contains c then
      (cluster flags valued cs).map fun r => ((c, []) :: r.1, r.2)
    else .error ("invalid option -- '" ++ Text.decoded [c] ++ "'")

/-- Options may stand anywhere among the operands. -/
def ofArguments (flags valued : String) : List Text → Except String Given
  | [] => .ok ⟨[], []⟩
  | ['-', '-'] :: args => .ok ⟨[], args⟩
  | ('-' :: '-' :: name) :: _ => .error ("unrecognized option '--" ++ Text.decoded name ++ "'")
  | ('-' :: c :: cs) :: args => do
    let (options, awaited) ← cluster flags valued (c :: cs)
    match awaited, args with
    | none, args =>
      let g ← ofArguments flags valued args
      return { g with options := options ++ g.options }
    | some c, [] => .error ("option requires an argument -- '" ++ String.ofList [c] ++ "'")
    | some c, value :: args =>
      let g ← ofArguments flags valued args
      return { g with options := options ++ (c, value) :: g.options }
  | arg :: args => do
    let g ← ofArguments flags valued args
    return { g with operands := arg :: g.operands }

end Given

/-- A program was not given what it needs. -/
def misuse (program reason : String) (status : Nat) : Run Unit := do
  complain (program ++ ": " ++ reason) status
  complain ("Try '" ++ program ++ " --help' for more information.") status

/-- Runs a program with its options, if they make sense. -/
def withOptions (program flags valued : String) (status : Nat) (args : List Text)
    (run : Given → Run Unit) : Run Unit := do
  match Given.ofArguments flags valued args with
  | .error reason => misuse program reason status
  | .ok g =>
    leave 0
    run g

/-! ### Files -/

/-- A name, which is quoted if it might be misread. -/
def shownName (name : Text) : String :=
  if !name.isEmpty && name.all fun c => c.isAlphanum || "%+,-./:=@_^]".contains c then name.decoded
  else "'" ++ name.decoded ++ "'"

/-- What stands in a file, or what is left of the input. -/
def contentOf (arg : Text) (complaint : FileError → String) (status : Nat) : Run (Option Text) := do
  if arg = ['-'] then return some (← readAll 0)
  let s ← get
  if let some stream := deviceStream? arg.decoded then return some (← readAll stream)
  match s.files.read (s.fullPath arg.decoded) with
  | .ok bytes => return some (.ofBytes bytes)
  | .error e =>
    complain (complaint e) status
    return none

/-- What stands in the files of a program, or what is left of its input. -/
def contentsOf (program : String) (paths : List Text) : Run (List (Text × Text)) := do
  let mut contents := []
  for path in if paths.isEmpty then [['-']] else paths do
    let complaint (e : FileError) := program ++ ": " ++ shownName path ++ ": " ++ e.words
    if let some text ← contentOf path complaint 1 then contents := contents ++ [(path, text)]
  return contents

/-- Changes the files, or complains. -/
def changeFiles (change : State → Except FileError FileTree) (complaint : FileError → String) :
    Run Unit := do
  let s ← get
  match change s with
  | .ok files => set { s with files }
  | .error e => complain (complaint e) 1

/-- What a program says about a file that it quotes in any case. -/
def aboutFile (program what : String) (path : Text) (e : FileError) : String :=
  program ++ ": " ++ what ++ " '" ++ path.decoded ++ "': " ++ e.words

/-- Makes files that are empty, unless they are there. -/
def touch (args : List Text) : Run Unit :=
  withOptions "touch" "acm" "dtr" 1 args fun g => do
    if g.operands.isEmpty then misuse "touch" "missing file operand" 1
    for path in g.operands do
      let s ← get
      if s.files.isDirectory (s.fullPath path.decoded) then continue
      if g.has 'c' && !s.files.isFile (s.fullPath path.decoded) then continue
      changeFiles (fun s => s.files.append (s.fullPath path.decoded) [])
        (aboutFile "touch" "cannot touch" path)

/-- Takes files away. -/
def takeAway (args : List Text) : Run Unit :=
  withOptions "rm" "rRfdiv" "" 1 args fun g => do
    let recursive := g.has 'r' || g.has 'R'
    if g.operands.isEmpty && !g.has 'f' then misuse "rm" "missing operand" 1
    for path in g.operands do
      let s ← get
      let full := s.fullPath path.decoded
      match s.files.find? full with
      | .ok .directory =>
        if recursive then set { s with files := s.files.remove full }
        else complain (aboutFile "rm" "cannot remove" path .isDirectory) 1
      | .ok (.file ..) => set { s with files := s.files.remove full }
      | .error e =>
        if !(g.has 'f' && (e = .notFound || e = .notDirectory)) then
          complain (aboutFile "rm" "cannot remove" path e) 1

/-- Makes directories. -/
def makeDirectories (args : List Text) : Run Unit :=
  withOptions "mkdir" "pv" "m" 1 args fun g => do
    if g.operands.isEmpty then misuse "mkdir" "missing operand" 1
    for path in g.operands do
      let parts := path.decoded.splitOn "/"
      if g.has 'p' then
        for n in List.range parts.length do
          let s ← get
          let above := s.fullPath ("/".intercalate (parts.take (n + 1)))
          if above.isEmpty || s.files.isDirectory above then continue
          changeFiles (fun s => s.files.makeDirectory above)
            (aboutFile "mkdir" "cannot create directory" path)
      else
        changeFiles (fun s => s.files.makeDirectory (s.fullPath path.decoded))
          (aboutFile "mkdir" "cannot create directory" path)

/-- Takes empty directories away. -/
def takeDirectories (args : List Text) : Run Unit :=
  withOptions "rmdir" "pv" "" 1 args fun g => do
    if g.operands.isEmpty then misuse "rmdir" "missing operand" 1
    for path in g.operands do
      let s ← get
      let full := s.fullPath path.decoded
      let refusal := "rmdir: failed to remove '" ++ path.decoded ++ "': "
      match s.files.placeOf full with
      | .error e => complain (refusal ++ e.words) 1
      | .ok place =>
        if !s.files.isDirectoryAt place then complain (refusal ++ FileError.notDirectory.words) 1
        else if !(s.files.names place).isEmpty then complain (refusal ++ "Directory not empty") 1
        else set { s with files := s.files.remove full }

/-- Copies a file, or gives it another path; a directory takes it in under its own name. -/
def transfer (program : String) (moves : Bool) (args : List Text) : Run Unit :=
  withOptions program "fnprRaiuvT" "" 1 args fun g => do
    match g.operands.reverse with
    | [] => misuse program "missing file operand" 1
    | [only] => misuse program ("missing destination file operand after '" ++ only.decoded ++ "'") 1
    | last :: sources =>
      for source in sources.reverse do
        let s ← get
        let from_ := s.fullPath source.decoded
        let name := (source.decoded.splitOn "/").getLast?.getD ""
        let onto := if s.files.isDirectory (s.fullPath last.decoded)
          then last.decoded ++ "/" ++ name else last.decoded
        let place := s.fullPath onto
        match s.files.find? from_ with
        | .error e => complain (aboutFile program "cannot stat" source e) 1
        | .ok .directory =>
          complain (program ++ ": -r not specified; omitting directory '" ++ source.decoded ++ "'") 1
        | .ok (.file content executable) =>
          if (s.files.placeOf place).toOption = (s.files.placeOf from_).toOption then
            complain (program ++ ": '" ++ source.decoded ++ "' and '" ++ onto ++
              "' are the same file") 1
          else
            let change (s : State) := do
              let files ← s.files.write place content
              let files := files.setExecutable place executable
              return if moves then files.remove from_ else files
            changeFiles change fun e =>
              if moves then "mv: cannot move '" ++ source.decoded ++ "' to '" ++ onto ++ "': " ++
                e.words
              else "cp: cannot create regular file '" ++ onto ++ "': " ++ e.words

/-- The names in directories, and files. -/
def listFiles (args : List Text) : Run Unit :=
  withOptions "ls" "1aA" "" 2 args fun g => do
    let shown (name : String) := g.has 'a' || g.has 'A' || !name.startsWith "."
    let own := if g.has 'a' then [".", ".."] else []
    let mut files : List Text := []
    let mut directories : List (Text × List String) := []
    for path in if g.operands.isEmpty then [['.']] else g.operands.mergeSort do
      let s ← get
      match s.files.placeOf (s.fullPath (Text.decoded path)) with
      | .error e => complain (aboutFile "ls" "cannot access" path e) 2
      | .ok place =>
        if s.files.isDirectoryAt place then
          directories := directories ++ [(path, own ++ (s.files.names place).filter shown)]
        else files := files ++ [path]
    let titled := 1 < g.operands.length
    write 1 (ofLines files)
    for (path, names) in directories do
      if titled then
        if !files.isEmpty || (directories.head?.any (·.1 ≠ path)) then write 1 ['\n']
        write 1 (path ++ [':', '\n'])
      write 1 (ofLines (names.map Text.ofString))

/-- Says whether files may be run. -/
def changeMode (args : List Text) : Run Unit := do
  leave 0
  match args with
  | [] => misuse "chmod" "missing operand" 1
  | [mode] => misuse "chmod" ("missing operand after '" ++ Text.decoded mode ++ "'") 1
  | mode :: paths =>
    let executable :=
      if mode.all isOctal then mode.any fun c => (c.toNat - 48) % 2 = 1
      else mode.contains 'x' && !mode.contains '-'
    let matters := mode.all isOctal || mode.contains 'x' || mode.contains '='
    for path in paths do
      let s ← get
      match s.files.find? (s.fullPath path.decoded) with
      | .error e => complain (aboutFile "chmod" "cannot access" path e) 1
      | .ok _ =>
        if matters then
          set { s with files := s.files.setExecutable (s.fullPath path.decoded) executable }

/-! ### Paths -/

/-- The last name of a path. -/
def lastName (path : Text) : Text :=
  let bare := (path.reverse.dropWhile (· = '/')).reverse
  if bare.isEmpty then path.take 1 else (bare.reverse.takeWhile (· ≠ '/')).reverse

/-- The path of the directory that a path leads into. -/
def directoryName (path : Text) : Text :=
  let bare := (path.reverse.dropWhile (· = '/')).reverse
  let above := (bare.reverse.dropWhile (· ≠ '/')).reverse
  let cut := (above.reverse.dropWhile (· = '/')).reverse
  if bare.isEmpty then if path.isEmpty then ['.'] else ['/']
  else if above.isEmpty then ['.']
  else if cut.isEmpty then ['/']
  else cut

/-- Prints the last names of paths. -/
def printNames (args : List Text) : Run Unit :=
  withOptions "basename" "az" "s" 1 args fun g => do
    let without (suffix name : Text) :=
      if suffix.isSuffixOf name && suffix ≠ name then name.take (name.length - suffix.length)
      else name
    let several := g.has 'a' || g.has 's'
    match g.operands with
    | [] => misuse "basename" "missing operand" 1
    | [path] => write 1 (without ((g.get? 's').getD []) (lastName path) ++ ['\n'])
    | path :: second :: more =>
      if several then
        write 1 (ofLines (g.operands.map fun p => without ((g.get? 's').getD []) (lastName p)))
      else match more with
        | [] => write 1 (without second (lastName path) ++ ['\n'])
        | extra :: _ => misuse "basename" ("extra operand '" ++ extra.decoded ++ "'") 1

/-- Prints the paths of the directories that paths lead into. -/
def printDirectories (args : List Text) : Run Unit :=
  withOptions "dirname" "z" "" 1 args fun g => do
    if g.operands.isEmpty then misuse "dirname" "missing operand" 1
    write 1 (ofLines (g.operands.map directoryName))

/-! ### Filters -/

/-- Prints files one behind the other. -/
def concatenate (args : List Text) : Run Unit :=
  withOptions "cat" "nu" "" 1 args fun g => do
    let texts := (← contentsOf "cat" g.operands).map (·.2)
    if g.has 'n' then
      for (line, i) in (linesOf texts.flatten).zipIdx do
        write 1 (paddedNumber 10 6 ' ' (i + 1) ++ '\t' :: line ++ ['\n'])
    else write 1 texts.flatten

/-- Options like `-5` are written out. -/
def expandCounts : List Text → List Text
  | ['-', 'n'] :: value :: args => ['-', 'n'] :: value :: expandCounts args
  | ['-', 'c'] :: value :: args => ['-', 'c'] :: value :: expandCounts args
  | ('-' :: d :: ds) :: args =>
    if (d :: ds).all Char.isDigit then ['-', 'n'] :: (d :: ds) :: expandCounts args
    else ('-' :: d :: ds) :: expandCounts args
  | arg :: args => arg :: expandCounts args
  | [] => []

/-- What of a text is asked for: ten lines, if nothing is said. A `sign` in front counts from the
other end. -/
def portionOf (program : String) (sign : Char) (g : Given) : Except String Portion :=
  let lines := (g.get? 'c').isNone
  match if lines then g.get? 'n' else g.get? 'c' with
  | none => .ok ⟨true, 10, false⟩
  | some value =>
    let (other, digits) := match value with
      | '-' :: ds => ('-' == sign, ds)
      | '+' :: ds => ('+' == sign, ds)
      | ds => (false, ds)
    match nat? digits with
    | some n => .ok ⟨lines, n, other⟩
    | none =>
      .error (program ++ ": invalid number of " ++ (if lines then "lines" else "bytes") ++ ": '" ++
        value.decoded ++ "'")

/-- Prints one end of every file. -/
def printEnds (program : String) (sign : Char) (take : Portion → Text → Text) (args : List Text) :
    Run Unit :=
  withOptions program "qvf" "nc" 1 (expandCounts args) fun g => do
    match portionOf program sign g with
    | .error reason => complain reason 1
    | .ok portion =>
      let titled := (1 < g.operands.length || g.has 'v') && !g.has 'q'
      let mut first := true
      for path in if g.operands.isEmpty then [['-']] else g.operands do
        let complaint (e : FileError) :=
          if e = .isDirectory then
            program ++ ": error reading '" ++ Text.decoded path ++ "': " ++ e.words
          else program ++ ": cannot open '" ++ Text.decoded path ++ "' for reading: " ++ e.words
        if let some text ← contentOf path complaint 1 then
          if titled then
            let title := if path = ['-'] then "standard input".toList else path
            write 1 ((if first then [] else ['\n']) ++ "==> ".toList ++ title ++ " <==\n".toList)
            first := false
          write 1 (take portion text)

/-- Counts lines, words and bytes. -/
def count (args : List Text) : Run Unit :=
  withOptions "wc" "lwcm" "" 1 args fun g => do
    let letters := g.options.map (·.1)
    let wanted := if letters.isEmpty then ['l', 'w', 'c'] else
      ['l', 'w', 'm', 'c'].filter letters.contains
    let counted (text : Text) : List Nat := wanted.map fun letter =>
      match letter with
      | 'l' => text.count '\n'
      | 'w' => (wordsIn text).length
      | _ => text.length
    let contents ← contentsOf "wc" g.operands
    let size := (contents.map (·.2.length)).sum
    let onlyFiles := !g.operands.isEmpty && g.operands.all (· ≠ ['-'])
    let width := if wanted.length = 1 && g.operands.length ≤ 1 then 1
      else max (digitsOf size).length (if onlyFiles then 1 else 7)
    let row (counts : List Nat) (name : Text) : Text :=
      joinWith [' '] (counts.map (paddedNumber 10 width ' ')) ++
        (if name.isEmpty then [] else ' ' :: name) ++ ['\n']
    for (path, text) in contents do
      write 1 (row (counted text) (if g.operands.isEmpty then [] else path))
    if 1 < g.operands.length then
      let sums := contents.foldl (fun sums c => sums.zipWith (· + ·) (counted c.2))
        (wanted.map fun _ => 0)
      write 1 (row sums "total".toList)

/-- Prints columns of lines. -/
def printColumns (args : List Text) : Run Unit :=
  withOptions "cut" "sn" "bcdf" 1 args fun g => do
    let separator := (g.get? 'd').getD ['\t']
    match g.get? 'f', (g.get? 'b').or (g.get? 'c') with
    | none, none => misuse "cut" "you must specify a list of bytes, characters, or fields" 1
    | some _, some _ => misuse "cut" "only one list may be specified" 1
    | some ranges, none =>
      match separator with
      | [c] =>
        for (_, text) in ← contentsOf "cut" g.operands do
          write 1 (ofLines ((linesOf text).filterMap (cutLine c (g.has 's') (rangesOf ranges))))
      | _ => misuse "cut" "the delimiter must be a single character" 1
    | none, some ranges =>
      for (_, text) in ← contentsOf "cut" g.operands do
        write 1 (ofLines ((linesOf text).map (selected (rangesOf ranges))))

/-- Prints lines in order. -/
def printSorted (args : List Text) : Run Unit :=
  withOptions "sort" "nrufbs" "kt" 2 args fun g => do
    let mut lines := []
    for path in if g.operands.isEmpty then [['-']] else g.operands do
      let complaint (e : FileError) :=
        if e = .isDirectory then "sort: read failed: " ++ shownName path ++ ": " ++ e.words
        else "sort: cannot read: " ++ shownName path ++ ": " ++ e.words
      match ← contentOf path complaint 2 with
      | some text => lines := lines ++ linesOf text
      | none => return
    write 1 (ofLines (sortLines (g.has 'n') (g.has 'r') (g.has 'u') lines))

/-- Prints lines without those that repeat the one before. -/
def printRuns (args : List Text) : Run Unit :=
  withOptions "uniq" "cdui" "fsw" 1 args fun g => do
    for (_, text) in ← contentsOf "uniq" (g.operands.take 1) do
      let runs := (runsOf (linesOf text)).filter fun r =>
        if g.has 'd' then 1 < r.1 else if g.has 'u' then r.1 = 1 else true
      write 1 (ofLines (runs.map fun r =>
        if g.has 'c' then paddedNumber 10 7 ' ' r.1 ++ ' ' :: r.2 else r.2))

/-- Exchanges characters of the input. -/
def exchangeInput (args : List Text) : Run Unit :=
  withOptions "tr" "cCdst" "" 1 args fun g => do
    match exchange (g.options.map (·.1)) g.operands, g.operands with
    | _, [] => misuse "tr" "missing operand" 1
    | exchanged, [first] =>
      if g.has 'd' || g.has 's' then write 1 ((exchanged (← readAll 0)).getD [])
      else
        complain ("tr: missing operand after '" ++ first.decoded ++ "'") 1
        complain "Two strings must be given when translating." 1
        complain "Try 'tr --help' for more information." 1
    | exchanged, [_, second] =>
      if g.has 'd' && !g.has 's' then
        complain ("tr: extra operand '" ++ second.decoded ++ "'") 1
        complain "Only one string may be given when deleting without squeezing repeats." 1
        complain "Try 'tr --help' for more information." 1
      else write 1 ((exchanged (← readAll 0)).getD [])
    | _, _ :: _ :: third :: _ => misuse "tr" ("extra operand '" ++ third.decoded ++ "'") 1

/-- Prints bytes as numbers. -/
def printBytes (args : List Text) : Run Unit :=
  withOptions "od" "vcbx" "AtN" 1 args fun g => do
    let style := match g.get? 't', g.has 'c', g.has 'b' with
      | some ['c'], _, _ | none, true, _ => Dump.letters
      | some ['o', '1'], _, _ | none, false, true => Dump.number 8 3 '0'
      | some ['u', '1'], _, _ => Dump.number 10 3 ' '
      | _, _, _ => Dump.number 16 2 '0'
    let base := match g.get? 'A' with
      | some ['n'] => none
      | some ['d'] => some 10
      | some ['x'] => some 16
      | _ => some 8
    let text := (← contentsOf "od" g.operands).flatMap (·.2)
    let text := match (g.get? 'N').bind nat? with
      | some n => text.take n
      | none => text
    if (← get).status = 0 then write 1 (dump style base (g.has 'v') text)

/-- Writes the input to files and to the output. -/
def duplicateInput (args : List Text) : Run Unit :=
  withOptions "tee" "ai" "" 1 args fun g => do
    let text ← readAll 0
    for path in g.operands do
      let change (s : State) := (if g.has 'a' then FileTree.append else FileTree.write) s.files
        (s.fullPath path.decoded) text.toBytes
      match deviceStream? path.decoded with
      | some stream => write stream text
      | none => changeFiles change fun e => "tee: " ++ shownName path ++ ": " ++ e.words
    write 1 text

/-- Bytes to text of 64 characters, or back. -/
def recode (args : List Text) : Run Unit :=
  let args := args.map fun arg => if arg = "--decode".toList then ['-', 'd'] else arg
  withOptions "base64" "di" "w" 1 args fun g => do
    for (_, text) in ← contentsOf "base64" (g.operands.take 1) do
      if g.has 'd' then
        let (decoded, whole) := fromBase64 (text.filter (· ≠ '\n'))
        write 1 decoded
        if !whole then complain "base64: invalid input" 1
      else
        let width := ((g.get? 'w').bind nat?).getD 76
        write 1 (folded width (toBase64 text))

/-- Prints the numbers of a range. -/
def printRange (args : List Text) : Run Unit := do
  let rec options (separator : Text) (equal : Bool) : List Text → Text × Bool × List Text
    | ['-', 's'] :: value :: args => options value equal args
    | ('-' :: 's' :: value) :: args => options value equal args
    | ['-', 'w'] :: args => options separator true args
    | args => (separator, equal, args)
  let (separator, equal, operands) := options ['\n'] false args
  leave 0
  let bad := operands.find? fun arg => (Formula.decimal? arg).isNone
  let show_ (first step last : Int) : Run Unit := do
    let numbers := countUp first step last
    let width := if equal then (numbers.map (·.length)).foldl max 0 else 0
    let wide (n : Text) : Text := match n with
      | '-' :: ds => '-' :: List.replicate (width - n.length) '0' ++ ds
      | n => List.replicate (width - n.length) '0' ++ n
    if !numbers.isEmpty then write 1 (joinWith separator (numbers.map wide) ++ ['\n'])
  match operands.map fun arg => (Formula.decimal? arg).getD 0 with
  | [] => misuse "seq" "missing operand" 1
  | numbers =>
    match bad, numbers with
    | some arg, _ =>
      misuse "seq" ("invalid floating point argument: '" ++ arg.decoded ++ "'") 1
    | none, [last] => show_ 1 1 last
    | none, [first, last] => show_ first 1 last
    | none, [first, step, last] =>
      if step = 0 then
        misuse "seq" ("invalid Zero increment value: '" ++ Text.decoded (operands[1]?.getD []) ++ "'") 1
      else show_ first step last
    | none, _ => misuse "seq" ("extra operand '" ++ Text.decoded (operands[3]?.getD []) ++ "'") 1

/-! ### Others -/

/-- Lets time pass. -/
def sleep (args : List Text) : Run Unit :=
  withOptions "sleep" "" "" 1 args fun g => do
    if g.operands.isEmpty then misuse "sleep" "missing operand" 1
    else
      let bad := g.operands.filter fun arg => (nanosOf? arg).isNone
      if bad.isEmpty then pass (g.operands.map fun arg => (nanosOf? arg).getD 0).sum
      else
        for arg in bad do complain ("sleep: invalid time interval '" ++ arg.decoded ++ "'") 1
        complain "Try 'sleep --help' for more information." 1

/-- Prints variables. -/
def printVariables (args : List Text) : Run Unit := do
  let environment := (← get).environment
  leave 0
  if args.isEmpty then
    for (name, value) in environment do write 1 (name ++ '=' :: value ++ ['\n'])
  for name in args do
    match environment.lookup name with
    | some value => write 1 (value ++ ['\n'])
    | none => leave 1

/-- A condition is checked by a program. -/
def judgeAlone (program : String) (args : List Text) : Run Unit := do
  let s ← get
  match Condition.holds ⟨s.files, s.fullPath⟩ (args.length + 1) args with
  | .ok b => leave (if b then 0 else 1)
  | .error reason => complain (program ++ ": " ++ reason) 2

/-- A format is printed by a program. -/
def printAlone (args : List Text) : Run Unit := do
  match args with
  | [] => misuse "printf" "missing operand" 1
  | form :: args =>
    let p := printed form args
    write 1 p.text
    leave 0
    for complaint in p.complaints do complain ("printf: " ++ complaint) 1
    if let some fault := p.fault then complain ("printf: " ++ fault) 1

/-- Runs a program that starts no other one; tells whether there is one of this name. -/
def runProgram (program : String) (args : List Text) : Run Bool := do
  match program with
  | "true" => leave 0
  | "false" => leave 1
  | "echo" =>
    leave 0
    match args with
    | ['-', 'e'] :: args => write 1 (echoed true args)
    | args => write 1 (echoed false args)
  | "printf" => printAlone args
  | "test" => judgeAlone "test" args
  | "[" =>
    if args.getLast? = some [']'] then judgeAlone "[" args.dropLast
    else complain "[: missing ']'" 2
  | "pwd" =>
    write 1 (Text.ofString (State.pathOf (← get).directory) ++ ['\n'])
    leave 0
  | "cat" => concatenate args
  | "head" => printEnds "head" '-' front args
  | "tail" => printEnds "tail" '+' back args
  | "wc" => count args
  | "cut" => printColumns args
  | "sort" => printSorted args
  | "uniq" => printRuns args
  | "tr" => exchangeInput args
  | "od" => printBytes args
  | "tee" => duplicateInput args
  | "base64" => recode args
  | "seq" => printRange args
  | "touch" => touch args
  | "rm" => takeAway args
  | "rmdir" => takeDirectories args
  | "mkdir" => makeDirectories args
  | "mv" => transfer "mv" true args
  | "cp" => transfer "cp" false args
  | "ls" => listFiles args
  | "chmod" => changeMode args
  | "basename" => printNames args
  | "dirname" => printDirectories args
  | "sleep" => sleep args
  | "printenv" => printVariables args
  | _ => return false
  return true

end KubeClient.Shell
