/-
  Text: character classes of the Unicode Character Database, version 14. A class is a rule on ASCII and a table of
  closed code point ranges above it; a table holds pairs of numbers, the gap from the end of the range before and the
  length less one. Numbers are written to the base 26 with letters for digits, the last one small and those before it
  capital.
-/

namespace Sheetwork.Text

variable (c : Char)

def hexDigit? : Option Nat :=
  if '0' ≤ c ∧ c ≤ '9' then some (c.toNat - 48)
  else if 'a' ≤ c ∧ c ≤ 'f' then some (c.toNat - 87)
  else none

variable (s : List Char)

def tableNumbers : List Int := go s 0 false []
where
  go : List Char → Nat → Bool → List Int → List Int
    | [], _, _, acc => acc.reverse
    | c :: r, n, neg, acc =>
      if c ≤ ' ' then go r n neg acc
      else if c = '-' then go r n true acc
      else if c ≤ 'Z' then go r (26 * n + (c.toNat - 65)) neg acc
      else
        let n := 26 * n + (c.toNat - 97)
        go r 0 false ((if neg then -(n : Int) else n) :: acc)

/-- Closed ranges of code points, ascending. -/
structure Ranges where
  bounds : Array (Nat × Nat)

namespace Ranges

/-- Reads the gap and length pairs of a table. -/
def ofTable (s : String) : Ranges := ⟨(go (tableNumbers s.toList) 0 []).toArray⟩
where
  go : List Int → Nat → List (Nat × Nat) → List (Nat × Nat)
    | gap :: len :: r, last, acc =>
      let lo := last + gap.toNat
      let hi := lo + len.toNat
      go r hi ((lo, hi) :: acc)
    | _, _, acc => acc.reverse

/-- The range that holds `n`, found by halving `[lo, hi)`. -/
def find? (t : Ranges) (n : Nat) : Option (Nat × Nat) := go t.bounds.size 0 t.bounds.size
where
  go : Nat → Nat → Nat → Option (Nat × Nat)
    | 0, _, _ => none
    | fuel + 1, lo, hi =>
      if lo < hi then
        let mid := (lo + hi) / 2
        match t.bounds[mid]? with
        | none => none
        | some (a, b) =>
          if n < a then go fuel lo mid
          else if b < n then go fuel (mid + 1) hi
          else some (a, b)
      else none

def contains (t : Ranges) (n : Nat) : Bool := (t.find? n).isSome

end Ranges

def letterTable : Ranges := .ofTable
  "GoalafagwcBecRpflpeiacaFaecbddcahacccactcDecFijGjcBldahBoCuBafdBuBqBkbcDucaqbiblcdaracBdBeDkmazBgkbfagvfakaeayyikg
  xcfsBpChCbeataijqpfhdbdvcgcaedearaobccpblajffbdvcgcbcbcbBgdcaucricccvcgcbceeataqbyamhdbdvcgcbceeaBfbccqasacfeccdeb
  cacbebecelxaCbhcccwcpeaBbcdadbBfafhcccwcjceeaBgbcbqbsicccBodaragcjczfgrexcicadgChBvcbngChbcacecxcacjcbkadecawdBhaC
  mhcBjBceEmBqvarffdeaebicfmnasBlcagadBqcMucddgcacddBocddBgcddgcacddocCecddCoBmprDhdfeXvdqczgCwhhirosprpmccqBzBkafaC
  qDkiedBhcagCrlBeByBddemBrfzCdwkCaDfaDqBushCdBdoblBrBbBjBqclBjdiiBqdcBqdcfcbeagHjCnKrdfdBldfdhcacacacBedCacgcaeccge
  ddffmgccgEnaoarmDyafadjcaeehacacacdckddgefaCbbDZgIuhdebnBlcagadCdiarwkgcgcgcgcgcgcgcgDdaScbBregbfDhhccDlcdgBqcDpsB
  fBxpTtJTnCnBGUeCqBtdKieplbvBurBedCrByidDydClgbcacezpcccdcwBeBzpBxClfeacbmBblwBaBciBuBdarecjlecBoycchvweaeBxcaebded
  acazcdkicnfdfdfkgcgcBqcnhEkBeQNrnwfBwMNdObdEbBngnegacjcmcecacbcbcEdBiNytCldCbBplEnecFeBlzhzmDkefdfdfdcBklczcscbcod
  nBjEsPaBceBwBwBfotchhBllBddBjfhBxGbtBjfBjfBnjBznkcocgcbckcocgcbCqLykvlhzfcBpciCsfdacBrcbeadwlwkBeCoscblvlzCtCdhbCn
  aqdcccBcBrBceBcBkhcBbBcCblvlsorEhCuCeByoByoBjNlBphbDbBclajvBrrBvuBcwnCaCgbdaoBsBhyBbBjBeadajBieanBvpdwacaBkrcyDhgc
  acdcocjiBuBnhdbdvcgcbceeataneGdCatdvcBfBvvbcaHdBuBqdBlBvvaCiBqoaCuBaBmgHeBrEnClBghdadhcbcxqacaDrhdBmracaBdalBniawa
  mBtuatCuKeicBksaByBdEjgcbcBlwaBafcbcBfpaMqsHiaDcBJlIxHnDXlDsqBPeFZuWkMUcVwiBesDasBdtBvrdBgugsBAnClEzCwgaCpmCnbcaBd
  JBzjBVpBriNFsdcgcbcLeBucsdjPfDKvEcgmeiijIWlDgcCscbdadbddclcacgcCmcddhcgcBbcdcecaegcNbdycycBecycBecycBecycBecychCSz
  BeSoBslgraMkBdtBrBWvgcdcbcocHoCiCpiaBUjdcBacbcadacjcdcacahafacacacccbcadacacacacacbcaddcgcdcdcacjcqgccecqGObCLFbBh
  GDsiIndINppLBkEPkUvCFzHHy"

/-- The numbers that are no digits. -/
def numberTable : Ranges := .ofTable
  "HgcDMsfOnfErcFegIkgsiQsjBPvkBHycJwjDNzBydeBCikkkkkDcjkaYrakakaCBiaBDyaBaipcNgdFjjBfhcoBhjBooBRZrjMjfBHQoBsnCesbNeB
  aBldBeajaFfeBSlhBagBoiCyexfGfbdpdBtCreCbbBfcCyeEbhzhBqgMtfNyvGdjBrdEjgFokOqtBZybQpiBHosBGuuBPcEgBAWjgBEtwBLZmtEfyI
  BviBJuCgcccdCzBscoBLmb"

def decimalTable : Ranges := .ofTable
  "CKujFfjHrjPxjEpjEpjEpjEpjEpjEpjEpjEpjEpjDtjEpjCtjKtjCtjCTrjBnjLpjEzjGljhjHbjDjjFfjhjCAEpjBAdjBnjHrjxjDjjPrjBFMdjCC
  ljDFzjBFhjEzjCjjFpjKtjNfjEpjOljDzjDzjQhjDzjBDfjJnjCtjBDBjjDjjFfjBPBxBxDNdjQhjCKljHBbj"

/-- The digits that only stand in special positions. -/
def digitTable : Ranges := .ofTable "GwbgaHCaiCLdaCMwaefhjBLvimimiDmalicaYhiciciDHVydBOniSwiDHByk"

/-- The printable characters that are no letters and no numbers. -/
def symbolTable : Ranges := .ofTable
  "GficbcddaccdaeayaBgaRrdnnggcacEygajagbcaEhaFkhIbfBqbdccCcBsbsvccBsulddaDwacgcgdgqbcneaBfBaDokChiddecxdcicccedoBbcd
  aBqaqhBrxcBgCdccrcgldlarcCfacgdbdckalbpbhbcbdcCfacefbdceaBfbeblcCfachccccvbnbjfccCfacgdbdciclbnasaCieeccdkaBchgeCe
  acgcccdibmbuaiacdCeacgcccdibmbBddCebcgcccdcaialbwaicCtaffcachtcCjadgfaiilbDiadimfCaBevlBywgkcBjcocmDdtmfhdfcccdged
  olcalfDoaXmlBojDzaXxbBtbDbcBldBdeBcbBfbCnBicdcaBjncaEobBjaEplflfaebFxBhyedbCcjcBcdaBhgcfdBeByeBwqwBkccBfmCfnjdBlte
  eClbCnhjyfahadcHrClReaccmcococobsxjBuBcemesBgqBgqbcdcblaccgfcacacafambfegdcaChbfZmBakDeCzxYfBfBMddBfcEaIwffcidcbEj
  apaDtDacBtBjzcDknIfBblgdeykggbgcDmdeaDnaFtbfjBhBjBdBemBdjaqBflBmqMhJTpClBGUjCcCebKkcDspBgbDdhjwkbEabEqaeafayjkdChd
  jbBzrjbrrhccadaBnjymmaBhdBwBarbgaCqnnajbpdycccBzaccdbgbcaBdbmgebDxapbEqkQRzDAtKHbalaFhqOqrEyaBtBdhBycscdFuolgBbfBb
  kEtgcgobJzcCbiCgqdccmeaBwBtItaFueBlaBxaPzaBCqaBgbGlaBgaHmccbgdBpcfariBnaCvaBdbkgCpgDmdPcdOycFxkfeBphEpcCcvBjadbldB
  umceCkcBlnmdcbBtclcBxnfkmaccCzsEdaCclwdCebcgdbdckalbdgeeHlrfelbcbDetdaIzgdBffbDftBdmClmcaDwordJdpJlfcbddcaceFjgdgc
  acaBdjBpgcmkkBvscePhhchceBrbBhvcnEtfeacbcgcaCpecbceNkfInBcoaBRteEJdbWDwbEzfChpfbBGsdGzacCcidDcacambBDAxdGYzBtdwkEl
  CjJllBmdCvjEhwCrHfDiBHraBaaBgaBaaBgaBaaBgaBaaBgaBaaCjZbqecoCAjgcqdgcbceKcgzaNnaCkdqaCFhgEggubBGnaeaEwaRibKlBrfDvno
  dococBkyGeCfBcoBrfiibpfFzBLvgpemeElnDkilfaqlfCdjjhBnjBddbDbNbnndeeeegkBcekgfljhhjgkFqcCcBSVIsJf"

def isAsciiDigit : Bool := '0' ≤ c && c ≤ '9'

def isAsciiUpper : Bool := 'A' ≤ c && c ≤ 'Z'

def isAsciiLower : Bool := 'a' ≤ c && c ≤ 'z'

def isAsciiLetter : Bool := isAsciiUpper c || isAsciiLower c

def isPlain : Bool := isAsciiLetter c || isAsciiDigit c

def isLetter : Bool := if c.toNat < 128 then isAsciiLetter c else letterTable.contains c.toNat

def isDigit : Bool :=
  if c.toNat < 128 then isAsciiDigit c else decimalTable.contains c.toNat || digitTable.contains c.toNat

def isAlphanumeric : Bool :=
  if c.toNat < 128 then isPlain c
  else letterTable.contains c.toNat || isDigit c || numberTable.contains c.toNat

/-- A character of a word: a letter, a number or the underscore. -/
def isWord : Bool := isAlphanumeric c || c = '_'

def decimalValue? : Option Nat :=
  if c.toNat < 128 then if isAsciiDigit c then some (c.toNat - 48) else none
  else (decimalTable.find? c.toNat).map fun r => (c.toNat - r.1) % 10

def isDecimal : Bool := (decimalValue? c).isSome

/-- White space: the blanks, separators and line ends of any script. -/
def isBlank : Bool :=
  let n := c.toNat
  (9 ≤ n && n ≤ 13) || (28 ≤ n && n ≤ 32) || n = 0x85 || n = 0xA0 || n = 0x1680 ||
    (0x2000 ≤ n && n ≤ 0x200A) || n = 0x2028 || n = 0x2029 || n = 0x202F || n = 0x205F || n = 0x3000

def isPrintable : Bool :=
  if c.toNat < 128 then 32 ≤ c.toNat && c.toNat < 127 else isAlphanumeric c || symbolTable.contains c.toNat

/-! Quoted literals. A text stands between single quotes, or between double quotes when it holds a
single quote and no double quote; what has no printed form is escaped. -/

def hexL (width n : Nat) : List Char :=
  let ds := Nat.toDigits 16 n
  List.replicate (width - ds.length) '0' ++ ds

def quoteFor : Char := if s.contains '\'' && !s.contains '"' then '"' else '\''

def escapeChar (quote c : Char) : List Char :=
  if c = quote || c = '\\' then ['\\', c]
  else if c = '\n' then ['\\', 'n']
  else if c = '\r' then ['\\', 'r']
  else if c = '\t' then ['\\', 't']
  else if isPrintable c then [c]
  else if c.toNat < 0x100 then '\\' :: 'x' :: hexL 2 c.toNat
  else if c.toNat < 0x10000 then '\\' :: 'u' :: hexL 4 c.toNat
  else '\\' :: 'U' :: hexL 8 c.toNat

def quotedL : List Char :=
  let q := quoteFor s
  q :: s.flatMap (escapeChar q) ++ [q]

def quoted (s : String) : String := String.ofList (quotedL s.toList)

end Sheetwork.Text
