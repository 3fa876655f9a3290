import PlanOrbits.Shell.Bytes.Digests
import PlanOrbits.Shell.Bytes.Radix
import PlanOrbits.Shell.Dump
import PlanOrbits.Shell.Utility.Input

/-!
# Programs that show bytes

Digests and checksums of files, and files as digits or as dumps. A list of digests
can be checked: it names files, and says which digests they should have.
-/

namespace PlanOrbits.Shell

/-! ## Digests -/

/-- A way to digest messages, and the title that is shown with its digests. -/
structure DigestMethod where
  title : String
  digest : List UInt8 → List UInt8

namespace DigestMethod

/-- A digest of BLAKE2b with so many bits. -/
def blake2 (bits : Nat) : DigestMethod where
  title := if bits = 512 then "BLAKE2b" else "BLAKE2b-" ++ String.ofList (Text.decimal bits)
  digest := Blake2.digest (bits / 8)

/-- The method that a name stands for. -/
def ofName? : String → Option DigestMethod
  | "md5" => some { title := "MD5", digest := Md5.digest }
  | "sha1" => some { title := "SHA1", digest := Sha1.digest }
  | "sha224" => some { title := "SHA224", digest := Sha256.shortDigest }
  | "sha256" => some { title := "SHA256", digest := Sha256.digest }
  | "sha384" => some { title := "SHA384", digest := Sha512.shortDigest }
  | "sha512" => some { title := "SHA512", digest := Sha512.digest }
  | "blake2b" | "b2" => some (blake2 512)
  | _ => none

/-- All methods. -/
def all : List DigestMethod :=
  ["md5", "sha1", "sha224", "sha256", "sha384", "sha512", "b2"].filterMap ofName?

/-- The digits of the digest of a text. -/
def digits (d : DigestMethod) (text : List Char) : List Char :=
  (Bytes.hex (d.digest (Bytes.ofChars text))).toList

/-- What a line of a list says: a method, if it is named, the digits, and a file. -/
def readLine? (line : List Char) : Option (Option DigestMethod × List Char × List Char) :=
  let titled? := all.findSome? fun d =>
    let front := d.title.toList ++ " (".toList
    if front.isPrefixOf line then
      let rest := (line.drop front.length).reverse
      let digits := rest.takeWhile fun c => (Text.hexDigit? c).isSome
      match rest.drop digits.length with
      | ' ' :: '=' :: ' ' :: ')' :: name => some (some d, digits.reverse, name.reverse)
      | _ => none
    else none
  let digits := line.takeWhile fun c => (Text.hexDigit? c).isSome
  let plain? :=
    match line.drop digits.length with
    | ' ' :: ' ' :: name | ' ' :: '*' :: name => some (none, digits, name)
    | _ => none
  titled?.or plain?

end DigestMethod

namespace Action

variable {m : Type → Type} [Monad m] [Storage m]

/-- The flags of the programs that digest. -/
def digestTable : FlagTable where
  plain := "bctwz"
  valued := "la"
  long := [("binary", 'b'), ("check", 'c'), ("text", 't'), ("zero", 'z'), ("quiet", 'q'),
    ("status", 'S'), ("tag", 'T'), ("warn", 'w'), ("ignore-missing", 'g'), ("strict", 'K'),
    ("length", 'l'), ("algorithm", 'a'), ("untagged", 'u'), ("raw", 'r'), ("base64", 'B')]
  isMixed := true

/-- Check the files of a list. Tells whether all is well. -/
def checkDigests (program : String) (default : Option DigestMethod) (f : Flags)
    (list : List Char) : Action m Bool := do
  let entries := (Line.all list).filterMap DigestMethod.readLine?
  let results ← entries.mapM fun (method, digits, name) => do
    match method.or default, ← operandText? program name with
    | none, _ => return (name, "FAILED", true)
    | some _, none =>
        return (name, "FAILED open or read", !f.has 'g')
    | some d, some text =>
        let isSame := d.digits text == digits.map Char.toLower
        return (name, if isSame then "OK" else "FAILED", !isSame)
  for (name, result, isBad) in results do
    let isShown := !f.has 'S' && (isBad || result == "OK" && !f.has 'q')
    if isShown then say (name ++ (": " ++ result ++ "\n").toList)
  if entries.isEmpty then
    report program "no properly formatted checksum lines found"
  return !entries.isEmpty && results.all fun (_, _, isBad) => !isBad

/-- Digest files, or check a list of digests. -/
def digest (program : String) (method : DigestMethod) (isTitled : Bool) (f : Flags) :
    Action m Unit := do
  let (texts, isRead) ← inputs program f.operands
  let results ← texts.mapM fun (path, text) => do
    if f.has 'c' then checkDigests program (if isTitled then none else some method) f text
    else
      let digits :=
        if f.has 'B' then Bytes.Radix.base64.encode (method.digest (Bytes.ofChars text))
        else method.digits text
      let line :=
        if f.has 'r' then Bytes.chars (method.digest (Bytes.ofChars text))
        else if isTitled || f.has 'T' then
          method.title.toList ++ " (".toList ++ path ++ ") = ".toList ++ digits
        else digits ++ (if f.has 'b' then [' ', '*'] else [' ', ' ']) ++ path
      let close := if f.has 'r' then [] else if f.has 'z' then ['\x00'] else ['\n']
      tell (line ++ close)
  succeed (isRead && results.all (·))

/-- The program that digests by one method. -/
def digestBy (program : String) (method : DigestMethod) (args : List (List Char)) :
    Action m Unit := do
  match Flags.ofArgs? digestTable args with
  | none => finish 1
  | some f =>
      match f.value? 'l' with
      | none => digest program method false f
      | some cs =>
          let bits := ((Text.digits? cs).map Text.number).getD 1
          if bits % 8 ≠ 0 ∨ 512 < bits then finish 1
          else digest program (.blake2 (if bits = 0 then 512 else bits)) false f

/-! ## Checksums -/

/-- A checksum with the number of bytes. -/
def cyclicLine (bytes : List UInt8) : List Char :=
  Text.decimal (Checksum.cyclic bytes).toNat ++ ' ' :: Text.decimal bytes.length

/-- A rotating sum with the number of blocks of 1024 bytes. -/
def rotatingLine (bytes : List UInt8) : List Char :=
  Rounded.padded 5 (Checksum.rotating bytes) ++ ' ' ::
    Line.padLeft 5 (Text.decimal ((bytes.length + 1023) / 1024))

/-- A plain sum with the number of blocks of 512 bytes. -/
def plainSumLine (bytes : List UInt8) : List Char :=
  Text.decimal (Checksum.plain bytes) ++ ' ' :: Text.decimal ((bytes.length + 511) / 512)

/-- Write a line for each file, with its name if it is given. -/
def checksums (program : String) (line : List UInt8 → List Char) (paths : List (List Char)) :
    Action m Unit := do
  let (texts, isRead) ← inputs program paths
  let lines := texts.map fun (path, text) =>
    line (Bytes.ofChars text) ++ if paths.isEmpty then [] else ' ' :: path
  let isWritten ← tell (Line.join lines)
  succeed (isRead && isWritten)

/-- Write checksums, or digests by a method with a name. -/
def checksum (args : List (List Char)) : Action m Unit := do
  match Flags.ofArgs? digestTable args with
  | none => finish 1
  | some f =>
      match String.ofList ((f.value? 'a').getD "crc".toList) with
      | "crc" =>
          if f.has 'c' then digest "cksum" (.blake2 512) true f
          else checksums "cksum" cyclicLine f.operands
      | "bsd" => checksums "cksum" rotatingLine f.operands
      | "sysv" => checksums "cksum" plainSumLine f.operands
      | name =>
          match DigestMethod.ofName? name, (f.number? 'l' 512) with
          | some method, some bits =>
              digest "cksum" (if f.has 'l' then .blake2 bits else method)
                (!f.has 'u' && !f.has 'c') f
          | _, _ => finish 1

/-- The flags of the program that sums bytes. -/
def sumTable : FlagTable where
  plain := "rs"
  valued := ""
  long := [("sysv", 's')]
  isMixed := true

/-- Write sums of bytes. -/
def sumBytes (args : List (List Char)) : Action m Unit := do
  match Flags.ofArgs? sumTable args with
  | none => finish 1
  | some f =>
      let letters := (f.given.map Prod.fst)
      let line := if letters.getLast? == some 's' then plainSumLine else rotatingLine
      checksums "sum" line f.operands

/-! ## Digits -/

/-- The flags of the programs that write bytes as digits. -/
def radixTable : FlagTable where
  plain := "diD"
  valued := "w"
  long := [("decode", 'd'), ("ignore-garbage", 'i'), ("wrap", 'w'), ("base64", 'D'),
    ("base64url", 'U'), ("base32", 'T'), ("base32hex", 'H'), ("base16", 'X')]
  isMixed := true

/-- Lines of so many characters; the last may be shorter. -/
def brokenLines (width : Nat) : Nat → List Char → List Char
  | 0, _ | _, [] => []
  | fuel + 1, cs => Line.ended (cs.take width) ++ brokenLines width fuel (cs.drop width)

/-- Write bytes as digits, or the bytes that digits stand for. -/
def writeRadix (program : String) (default : Option Bytes.Radix) (args : List (List Char)) :
    Action m Unit := do
  let letters : List (Char × Bytes.Radix) :=
    [('D', .base64), ('U', .base64url), ('T', .base32), ('H', .base32hex), ('X', .base16)]
  match Flags.ofArgs? radixTable args with
  | none => finish 1
  | some f =>
      let chosen? := f.given.reverse.findSome? fun (c, _) => letters.lookup c
      match chosen?.or default, f.number? 'w' 76, f.operands with
      | some radix, some width, operands =>
          if 1 < operands.length then finish 1
          else
            let (text, isRead) ← gathered program operands
            if !isRead then finish 1
            else if f.has 'd' then
              let isKept := fun (c : Char) =>
                c != '\n' && (!f.has 'i' || radix.alphabet.contains c || c == '=')
              let (bytes, isGood) := radix.decode (text.filter isKept)
              say (Bytes.chars bytes)
              if !isGood then report program "invalid input"
              succeed isGood
            else
              let digits := radix.encode (Bytes.ofChars text)
              answer (if width = 0 then digits else brokenLines width (digits.length + 1) digits)
      | _, _, _ => finish 1

/-! ## Dumps -/

/-- Dump files as one. -/
def dump (args : List (List Char)) : Action m Unit := do
  match Dump.ofArgs? args with
  | none => finish 1
  | some (layout, skipped, limit, paths) =>
      let (texts, isRead) ← inputs "od" paths
      let bytes := Bytes.ofChars (texts.flatMap Prod.snd)
      if texts.isEmpty then finish 1
      else if bytes.length < skipped then
        report "od" "cannot skip past end of combined input"
        finish 1
      else
        let rest := bytes.drop skipped
        let isWritten ← tell (layout.run skipped (limit.elim rest (rest.take ·)))
        succeed (isRead && isWritten)

/-! ## All of them -/

/-- The program that shows bytes with a name, if there is one. -/
def byteProgram? (name : String) : Option (List (List Char) → Action m Unit) :=
  match name with
  | "cksum" => some checksum
  | "sum" => some sumBytes
  | "base64" => some (writeRadix name (some .base64))
  | "base32" => some (writeRadix name (some .base32))
  | "basenc" => some (writeRadix name none)
  | "od" => some dump
  | _ =>
      let stem := name.toList.take (name.length - 3)
      if name.toList.drop stem.length == "sum".toList then
        (DigestMethod.ofName? (String.ofList stem)).map (digestBy name)
      else none

end Action

end PlanOrbits.Shell
