import Sheetwork.Text.Class
/-
  Text: upper and lower case of texts. A run of a case table is start gap, count, step and offset; a few letters
  become several, and a capital sigma at the end of a word has a lower case of its own.
-/

namespace Sheetwork.Text

/-- Letters at `start`, `start + step`, …, `count` of them, each `offset` away from
its other case. -/
structure CaseRun where
  (start count step : Nat)
  offset : Int

def CaseRun.image? (r : CaseRun) (n : Nat) : Option Nat :=
  if r.start ≤ n ∧ (n - r.start) % r.step = 0 ∧ (n - r.start) / r.step < r.count then
    some (n + r.offset).toNat
  else none

def caseRuns (s : String) : List CaseRun := go (tableNumbers s.toList) 0 []
where
  go : List Int → Nat → List CaseRun → List CaseRun
    | gap :: count :: step :: offset :: r, last, acc =>
      let start := last + gap.toNat
      go r start (⟨start, count.toNat, step.toNat, offset⟩ :: acc)
    | _, _, acc => acc.reverse

def upperRuns : List CaseRun := caseRuns
  "GzbbBCpBrxb-Bgyhb-BghbbErcyc-bBwbb-Iycdc-bhic-brxc-bBvdc-bfbb-LobbbHndcc-bfbb-bebb-bgbb-bdbbDtebb-bbbbGhebbFaddc-b
  hbb-bfbb-bdbb-becc-bfbb-bebb-bcbbCegbb-bbbb-ccbb-bbbb-ccbb-bbbb-ccic-bpbb-Dbcjc-btbb-bbbb-ccbb-beuc-bBqjc-bzbb-bdc
  bPZzdbb-bffc-bjbbPYtbbbPYqbbbPYsbbb-Icbbb-Hyccb-Hxdbb-Hucbb-HvbbbCKPrebb-HxbbbCKPncbb-HzcbbCKOebbbCKPgcbb-Ibbbb-Id
  bbbCKPgbbbPXfbbbCKPddbb-IdcbbPXlbbb-Ifdbb-IgibbPWpdbb-IkcbbCKPfbbb-IkebbCKOgbbb-Ikbbb-Crbcb-Ijcbb-Ctgbb-IllbbCKNlb
  bbCKNiGlbbDgBscc-bgbb-bedbFaBxbb-Bmbdb-Blerb-Bgrbb-Bfbjb-Bgjbb-Cmbcb-Cldbb-Ckbbb-Cfebb-Bvbbb-Ccbbb-icmc-bxbb-Dibbb
  -Dcbbbhbbb-Emcbb-Dsdbb-bdbb-bCbBgb-BgBgqb-Dcrrc-bBqBbc-bCdhc-bnbb-pcBwc-bFoBmb-BwEIpBrbELsBtdbELsBDjgb-iDGabb-JGob
  bb-JGnbbb-JGebcb-JGccbb-JGdbbb-JFwbbb-JDtbbbCAEkJhbbCAGyebbFQsrbbCAIyElCxc-bFybb-ChgBwc-bDribiqgbiqibiqibiqgbireci
  pibiqcbCwcebDiecbDwccbEyccbEiccbEwCacbiobb-KRdscbiqcbifbbhNxbb-BcBiqb-qubb-bBGmBab-BaCUqBwb-BwBxbb-bebb-PZfbbb-PZc
  cdc-blbb-bdbb-blByc-bEdcc-bhbb-bnBmb-KTkBnbb-KTkgbb-KTkBTWexc-bCmoc-bGghc-bqBfc-bCtcc-bffc-bnbb-bfcc-bdbbBwdkc-bBe
  ic-btcc-bjbb-bgcc-bBfbb-bBHdbb-BJsBdDcb-CFMuBFThBab-BgBWhBob-BoGuBkb-BoHjtc-Bnbfc-Bnmhc-Bnqdc-Bnibb-BnCRcBzb-CmEOe
  Bgb-BgBGLcBgb-BgBUMsBib-Bi"

/-- The way back from the other case. -/
def CaseRun.inverse (r : CaseRun) : CaseRun := { r with start := (r.start + r.offset).toNat, offset := -r.offset }

/-- Letters with a lower case of their own go before the inverse of the upper case. -/
def lowerRuns : List CaseRun := caseRuns
  "RkbbcbbbbcbbcbbbbcbbcbbbbBmbbcbbbbQhbbBgdbbBghbbBgDdbb-CiKCobb-LGxJaib-iqib-iqib-iubb-jqbb-jBwbb-jLmbb-LDdebb-MKlb
  bb-MFuBYKtbbb" ++
  upperRuns.map CaseRun.inverse

/-- Letters whose upper case is several letters: the first of a row of letters, how many there are,
the number of letters and the letters, of which the first goes along the row. -/
def upperExpansions : List (Nat × List Char) :=
  go 200 (tableNumbers
  "IpbcDfDfMrbcBAyDaTcbcCwBEaBJcbdBJlBDwBDpBKibdBJxBDwBDpCClbcBZhCAkLPebcCuBFlLPfbcDgBDwLPgbcDjBDyLPhbcDlBDyLPibcCnBB
  aLWibcBJxBEhLWkbdBJxBEhBDoLWmbdBJxBEhBDpLWobdBJxBEhBGcLYeicLToBJlLYmicLToBJlLYuicLUuBJlLZcicLUuBJlLZkicLXgBJlLZsic
  LXgBJlMAcbcMAkBJlMAdbcBJdBJlMAebcBIsBJlMAgbcBJdBGcMAhbdBJdBGcBJlMAmbcBJdBJlMAsbcMBaBJlMAtbcBJjBJlMAubcBIvBJlMAwbcB
  JjBGcMAxbdBJjBGcBJlMBcbcBJjBJlMBibdBJlBDwBDoMBjbdBJlBDwBDpMBmbcBJlBGcMBnbdBJlBDwBGcMBybdBJxBDwBDoMBzbdBJxBDwBDpMCa
  bcBJtBEhMCcbcBJxBGcMCdbdBJxBDwBGcMCobcMCwBJlMCpbcBKbBJlMCqbcBJbBJlMCsbcBKbBGcMCtbdBKbBGcBJlMCybcBKbBJlDRBkbcCsCsDR
  BlbcCsCvDRBmbcCsCyDRBnbdCsCsCvDRBobdCsCsCyDRBpbcDfDgDRBqbcDfDgDRCdbcBZwBZyDRCebcBZwBZhDRCfbcBZwBZnDRCgbcCAgBZyDRCh
  bcBZwBZp".toList)
where
  go : Nat → List Int → List (Nat × List Char)
    | fuel + 1, n :: count :: len :: a :: r =>
      let rest := len.toNat - 1
      (List.range count.toNat).map (fun (i : Nat) =>
          ((n + i).toNat, ((a + i) :: r.take rest).map fun k => Char.ofNat k.toNat)) ++
        go fuel (r.drop rest)
    | _, _ => []

def casedTable : Ranges := .ofTable
  "CnzhzBwalafagwcBecHmcdfHzcBaHlddbeccahacccactcDecFijGjcBlkBoEFgBlcagadBqdcZxDhdfDFviiBqdcCnBrCmmcBhDyKrdfdBldfdhca
  cacacBedCacgcaeccgeddffmgccgKcafadjcaeehacacacdcffaddgefasBfebBFmBzCRvEtdDyhdebnBlcagaBTWdBttBbFfCzcwedcCggbcaceBc
  beaBFqBqgiiDbBEAjgneBNuzhzBTuDbDtBjfBjEnkcocgcbckcocgcbCOqByoByELaClBGIrClBMLlDgcCscbdadbddclcacgcCmcddhcgcBbcdcec
  aegcNbdycycBecycBecycBecycBecychCSzjctDTiCpDAbzhzhz"

def caseIgnorableTable : Ranges := .ofTable
  "BnahamaBkacaCuafacafadbTkHjfbfakbcaJsgIaagaByBscacbcbcaBtamflkcaBkaluraDyhcjcdBiacaBfBaDokChkfadazxBscBtaibhhBqCfC
  eacafhfaeglboaqaChafdjavbBbadbCgafbfbdceaBfbeambCgafecbfavbxfcaChadacdjaibmbBfaCkanaBzaeaCeaccgccdibmbBeaChadahagb
  vbBdbCgbfdjavbBeaCvaiccaDnadgmiDvadikacfCxbBcacacaCencecbgkcBjkaDzdcfcbdbBabfcrdoadbhaqaDraXlcBKlcBebBfbBfbCnbcgja
  dkeagaBueCaaCobBjaEpcfbkahcImbdaChacgcacadhhjdaBoajBeBydBxacecagaBpinbBhddbccCfacbeaccChhdbCnfDfccmcgfahaebBzCkoaB
  jDwReaccmcococobnejbladadeByecjcaoarmCaBgEJsbEkcEwaqaDtBfBwaScaBldeegaDqfDqcBQBvaBWdfKlaDvdcjcaBddDdbpBhDbaycEaceb
  jaeafaBabgaFwbBbroaBnhBakBvcBxadddbsawbCpfdbdbnajaBkamaCaaccdbgbcaBcapbgbcaDxekcEsadafaBDZtaFsqWcpeanpBjadaGoaiaha
  maBkacaBwaBubCqawcTuaItaFueBNqfcBpciWlccbgdBpcfaGkbWcdOybFykBydEuaCdoBqadblcByddbdafalaBzcBlechClanbCbilddaDscdacb
  haGfaehwbCgbeaBmgeeHohdccayaDhfcafbcbJfdhbcbBcbDihdacbEdacadfcaDycddceKaicbJxbcafaFpddbfaBhjBpfddjakfdcBvmcbPrgcfc
  aDfvdgcbcbEtfeacbcgcaCvbeacaNkbIBciUSueCigkdBNwaCmqCnbcbYGqdcgcbEUhbcdGYvBtdwUzckpdgBfdFtcCYeCcfBxjapaxecoCAjgcqdg
  cbceKcnOfaCkdCFxgEghEBgeBSXXqaBfDrEzJf"

/-- The one-letter upper case of a letter, itself if there is none. -/
def upperChar (c : Char) : Char :=
  if c.toNat < 128 then if isAsciiLower c then Char.ofNat (c.toNat - 32) else c
  else match upperRuns.findSome? (·.image? c.toNat) with
    | some n => Char.ofNat n
    | none => c

/-- The one-letter lower case of a letter, itself if there is none. -/
def lowerChar (c : Char) : Char :=
  if c.toNat < 128 then if isAsciiUpper c then Char.ofNat (c.toNat + 32) else c
  else if c.toNat = 0x130 then 'i'
  else match lowerRuns.findSome? (·.image? c.toNat) with
    | some n => Char.ofNat n
    | none => c

def upperChars (c : Char) : List Char :=
  if c.toNat < 128 then [upperChar c]
  else match upperExpansions.find? (·.1 = c.toNat) with
    | some (_, cs) => cs
    | none => [upperChar c]

def meetsCased : List Char → Bool
  | [] => false
  | c :: r =>
    if caseIgnorableTable.contains c.toNat then meetsCased r else casedTable.contains c.toNat

/-- Lower case, with the reversed characters before for the final sigma. -/
def lowerFrom (before : List Char) : List Char → List Char
  | [] => []
  | c :: r =>
    let here :=
      if c.toNat = 0x3A3 then [Char.ofNat (if meetsCased before && !meetsCased r then 0x3C2 else 0x3C3)]
      else if c.toNat = 0x130 then [Char.ofNat 0x69, Char.ofNat 0x307]
      else [lowerChar c]
    here ++ lowerFrom (c :: before) r

def upper (s : String) : String := String.ofList (s.toList.flatMap upperChars)

def lower (s : String) : String := String.ofList (lowerFrom [] s.toList)

end Sheetwork.Text
