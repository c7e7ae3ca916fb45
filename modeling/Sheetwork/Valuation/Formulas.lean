import Sheetwork.Model.Groups
/-
  Valuation: the formulas of nine sheets. A table writes lines of cells with one dragged formula as their ranges, an
  equals sign and the formula of the first cell, and the sheets that others refer to as a letter.
-/

namespace Sheetwork.Valuation

open Model

/-- The letters of sheets and how formulas name them. -/
def sheetLetters : List (String × String) :=
  [("B!", "'BALANCESHEET'!"), ("C!", "'CASH FOW STATEMENT'!"), ("I!", "'INCOME STATEMENT'!"),
    ("R!", "'Ratio Analysis'!"), ("V!", "'Valuation'!")]

def lines (table : String) : List Dragged :=
  (Text.words table).filterMap fun line => (Text.cut? "=" line).map fun (cells, formula) =>
    ⟨cells, "=" ++ sheetLetters.foldl (fun f (letter, name) => Text.replace letter name f) formula⟩

/-! Lines of business. -/

/-- The revenue of quarters and years, on two sheets alike. -/
def quarters : List Dragged :=
  lines "F8:F14,K8:K14,P8:P14,F16:F17,P16,U16=SUM(B8:E8) T8:T14=U8-(Q8+R8+S8)
  B15:E15,G15:J15,L15:O15,Q15:T15=SUM(B8:B14) F15,K15,P15=F8+F9+F10+F11+F12+F13+F14 U15=Q15+R15+S15+T15
  B17:E17,G17:P17,T17:Y17=B15-B16 Q17:S17=SUM(Q15:Q16)"

def segments : List Dragged :=
  quarters ++ lines "U8:U11,U13:U14=(U24+1)*P8 V8:Y14,W15:Y16,V16=(V24+1)*U8 U12=(U28+1)*3819 V15,V58:Y58=SUM(V8:V14)
  G24:T33,U33=G8/B8-1 V33:Y33=V17/U17-1 G37:Y37=G8/G17 G38:Y38=G9/G17 G39:Y39=G10/G17 G40:Y40=G11/G17 G41:T41=G12/G17
  V41:Y46=V12/V$17 G42:U42=G13/G17 G43:U43=G14/G17 G44:U44=G15/G17 G45:U45=G16/G17 G46:U46=G17/G17
  F51:F56=SUM(C51:E51) K51=G51+H51+I51+I52+J52+J51 P51:P57,U51:U57,P59:P60,U59:U60,P65:P71,U65:U73,P73=SUM(L51:O51)
  K53:K57,K59:K61,K65:K71,K73=SUM(G53:J53) F57,F59:F60,F65:F71,F73=SUM(B57:E57)
  B58:E58,H58:J58,L58:O58,Q58:T58,B72,D72:E72,G72:J72,N72:O72,Q72:T72=SUM(B51:B57)
  F58,P58,U58,F72,K72,P72=F51+F52+F53+F54+F55+F56+F57 G58=SUM(G53:G57) K58=K51+K53+K54+K55+K56+K57
  B61:H61,J61=B58-B59-B60 I61,M61:O61,S61:T61=SUM(I58:I60) L61,L74:O74,Q74:U74=SUM(L59:L60) P61,U61:Y61=P58+P59+P60
  Q61:R61=Q58+Q59-Q60 C72,L72:M72=SUM(C66:C71) B74:E74,H74:J74=SUM(B72:B73) F74=B74+C74+D74+E74 G74,K74,P74=G72+G73"

def income : List Dragged :=
  lines "D6,F6,K6,M6,O6:O7,R6,T6,Y6,AA6,AC6:AC7,H7,V7,D11,F11,K11,M11,O11,R11,T11,Y11,AA11,AC11,D13,K13,R13,Y13,AC13=B6+C6
  B7:G7,B22:G22=B6/$H6*100 I7:N7,I22:N22,I42:N42=I6/$O6*100 P7:U7,P22:U22=P6/$V6*100
  W7:AB7,W22:AB22,W42:AB42=W6/$AC6*100 H8=(H6/#REF!-1)*100 I8:J8,M8:Q8,T8:AC8,I23:AC23=(I6/B6-1)*100 K8=(L6/D6-1)*100
  L8=L6/E6-1*100 R8:S8=(R6/$L6-1)*100 AD8:AG8,AD23:AG23=(AD6/AC6-1)*100 C9,J9,Q9,X9,C24,J24,Q24,X24=(C6/B6-1)*100
  E9,G9,I9,L9,N9,P9,S9,U9,W9,Z9,AB9,E24,G24,I24,L24,N24,P24,S24,U24,W24,Z24,AB24=(E6/C6-1)*100
  B10:G10,S10,AD10:AG10=B11+B13+B15+B17+B19 H10=H11+H13+H17+H15 I10=I11+I13+I17+I15+I51
  J10,L10:P10,R10,T10:AC10=J11+J13+J17+J15+J19 Q10=Q11+Q13+U17+Q15+Q19 AD11:AG11=AD6*AD12%
  B12:J12,M12:V12,X12:AC12=B11/B6% K12:L12=K11/$L6% W12=W11/W6*100
  F13,M13,T13,AA13,F15,M15,T15,AA15,F17,M17,T17,AA17,F19,M19,T19,AA19=E13+D13 AD13:AG13=AD6*AD14%
  B14:J14,M14:AC14=B13/B6% K14:L14=K13/$L6%
  D15,H15,K15,O15,R15,V15,Y15,AC15,D17,K17,O17,Y17,AC17,D19,H19,R19,V19,Y19,AC19,H22,O22,V22,AC22,D26:D27=B15+C15
  AD15:AG15=AD6*AD16% B16:J16,M16:AC16=B15/B6% K16:L16=K15/$L6% R17=P17+U17 AD17:AG17=AD6*AD18%
  B18:J18,M18:P18,R18:AC18=B17/B6% K18:L18=K17/$L6% Q18=U17/Q6% K19=I51+J19 AD19:AG19=AD6*AD20%
  B20:C20,E20,I20=B51/B6% D20,F20:H20,J20,M20:AC20=D19/D6% K20:L20=K19/$L6% B21:J21,M21:AG21=B6-B10 K21:L21=$L6-K10
  B25:J25,M25:AG25=B21/B6*100 K25:L25=K21/$L6*100
  F26:F27,H26:H27,K26:K27,M26:M27,O26:O27,R26:R27,T26:T27,V26:V27,Y26:Y27,AA26:AA27,AC26=D26+E26
  B28:AG28=B21-(B26+B27)
  D29,F29,H29,K29,M29,O29,R29,T29,Y29,AA29,AC29,M31,R31,T31,Y31,AA31,D33:D35,F33:F35,K33:K35,M33:M35,R33:R35=B29+C29
  V29=61177+18485 B30:AG30,B32:F32,H32:O32=B28+B29 G32=G30+G51 P32:AG32=P30-P31
  T33:T35,Y33:Y35,AA33:AA35,AC33:AC34=R33+S33 AD33:AG33=AD32*33% H34:H35=F34+G34 B36:AG36=B33/B32%
  B37:AG37=(B33+B34+B35)/B32*100 B38:AG38=B32-B33-B34-B35 D39:D40,H39,AC41:AC42,H42,O42,V42=B39+C39
  B41:AB41=B38-B39-B40 B42:G42=B38/$H38*100 P42:U42=P38/$V38*100 B43:H43=(B38/#REF!-1)*100 I43:AC43=(I38/B38-1)*100
  AD43:AG43=AD41/AC41% B44=(B38/#REF!-1)*100 C44,J44,Q44,X44=(C38/B38-1)*100
  E44,G44,I44,L44,N44,P44,S44,U44,W44,Z44,AB44=(E38/C38-1)*100 B45:J45,M45:AG45=B41/B6*100 K45:L45=K41/$L6*100
  C47:O47,Q47:R47,T47:AG47=B47 P47=N47 B48:D48,F48:L48,N48:AG48=B47/10 E48=E47/10.52 M48=M47/1 B49:AG49=B41/B48
  W66=81-58"

/-! Cash flow, balance sheet and debt. -/

def cashFlow : List Dragged :=
  lines "B8=I!H32 C8=I!O32 D8=I!V32 E8=I!AC32 F8:I8=I!AE32 B9=I!H33-I!H34 C9=I!O33-I!O34 D9=I!V33-I!V34
  E9=I!AC33-I!AC34 F9:I9=I!AE33-I!AE34 B10:I10,B14:I14=B8-B9 B11=I!H27 C11=I!O27 D11=I!V27 E11:I11=I!AC27
  B12:I12,E24:I24=B10+B11 B13:I13=B!C28-B!B28+(B!C31-B!B31) B17:I17=B!C9-B!B9 B19:I19=B!C33-B!B33
  B20:I20=B!C37+B!C38+B!C40+B!C41-B!C43-(B!B37+B!B38+B!B40+B!B41-B!B43) B21:I21=B!C19-B!B19 E22=D24
  B23=B14-B16+B17-B19-B20+B18+B21 C23:D23=C14-C16+(C17-C19)-(B20+C18+C21) E23:I23=E14-E16+E17-E19-D20+E18+E21"

def balance : List Dragged :=
  lines "B8:J8,B19:J19=SUM(B9:B10) B10:J10=SUM(B11:B17) B24:J24=B9+B10+B19+B23 B27:J27=SUM(B30:B31) B30:J30=B28-B29
  B36:J36=SUM(B37:B41) B43:E43=B44+B52 B44:J44=SUM(B45:B50) B52:E52=SUM(B53:B56) B58:E58=B36-(B44+B52)
  B60:J60=B27+B33+B34+B58"

def debt : List Dragged := lines "B11:I11,B20:I20=B7+B9 B21:I21=B20+B11"

/-! Worth and ratios. -/

def worth : List Dragged :=
  lines "K6=G9/G13 K7=G12/G13 G9=G8*G7 B10=B11+B12*B13 G10=B!E19 K10=I!V37 G11=B!E39 G12=G10+G11 G13,G56=G9+G12
  K13=B10*K6+K9*K7*(1-K10) B19=I!V6 C19:G19=I!AC6 H19:K19=G19*(1+H37) B20=I!V21 C20:G20=I!AC21 H20:K20=H21+H24
  B21=I!V21-I!V27 C21:G21=C20-I!AC27 H21:K21=H19*H44 B22=I!V33 C22:G22=I!AC33 H22:K22=H21*H48 B23:K23=B21-B22
  B24=I!V27 C24:G24=I!AC27 H24:K24=H45*H19 B25:G25=C!D20 H25:K25,H30:K30=G25 B26:K26=B23+B24-B25 B27:G27=C!D13
  H27:K27=H46*-H19 B28:K28,G55=B26+B27 B30=I!V48 C30:G30=I!AC48 C33:J33=1/(1+$K13)^C32 C34:J34=C33*C28
  C37:E37,C38:K39=C19/B19-1 F37:I37=E37-($E37-$J37)/5 K37=B6 C40:K40=C24/B24-1 B43:E43=B20/B19 B44:E44=B21/B19
  F44:K46,F48:K48=E44 B45:E45=B24/B19 B46:E46=-B27/B19 B48:E48=B22/B21 B52=SUM(C34:J34) G52=B55+B52 K52=G56 B53=K13
  G53:G54=-G10 K53=G8 B54=B6 B55=K28/(B53-B54)*J33 K55=K52/K53 B56=B55/(B55+B52) C64=B55 H64:J64,H74:J74=D64
  B65:B69,B75:B79=NPV(A65,C$28:J$28) H65:H69,H75:H79=(B65+D65+G$55)/K$53 I65:I69,I75:I79=(B65+E65+G$55)/K$53
  J65:J69,J75:J79=(B65+F65+G$55)/K$53 A67=B53 D75:D79=D$74*(K$21+K$24)/(1+A75)^J$32
  E75:E79=E$74*(K$21+K$24)/(1+A75)^J$32 F75:F79=F$74*(K$21+K$24)/(1+A75)^J$32 A77=B53"

def ratios : List Dragged :=
  lines "B7:J7=(B!B19+B!B23)/B!B24% B8:J8=B!B19/B!B8 B9:J9=B!B36/B!B43 C10=I!H6/(B!C27+B!B27) D10=I!O6/(B!D27+B!C27)
  E10=I!V6/(B!E27+B!D27) F10:J10=I!AC6/(B!F27+B!E27) C11=I!H38/B!C8 D11=I!O38/B!D8 E11=I!V38/B!E8 F11:J11=I!AC38/B!F8
  C12=(I!H32+I!H26)/((B!C24+B!B24)*0.5) D12=(I!O32+I!O26)/(B!D8+B!C8) E12=(I!V32+I!V26)/(B!E8+B!D8)
  F12:J12=(I!AC32+I!AC26)/(B!F8+B!E8) C13=I!H21*100/I!H6 D13=I!O21*100/I!O6 E13=I!V21*100/I!V6
  F13:J13=I!AC21*100/I!AC6 C14=I!H41*100/I!H6 D14=I!O41*100/I!O6 E14=I!V41*100/I!V6 F14:J14=I!AC41*100/I!AC6
  C15=I!H26/(B!C19+B!B19) D15=I!O26/(B!D19+B!C19) E15=I!V26/(B!E19+B!D19) F15:J15=I!AC26/(B!F19+B!E19) C16=I!H37%
  D16=I!O37% E16=I!V37% F16:J16=I!AC37% B17:J17=B!B39/B!B27 C18=I!H29/I!H32 D18=I!O29/I!O32 E18=I!V29/I!V32
  F18:J18=I!AC29/I!AC32 C19=(I!H21-I!H27)/I!H26 D19=(I!O21-I!O27)/I!O26 E19=(I!V21-I!V27)/I!V26
  F19:J19=(I!AC21-I!AC27)/I!AC26 C20:J20=B!C28/B!B28-1 D21=I!O6/I!H6-1 E21=I!V6/I!O6-1 F21:J21=I!AC6/I!V6-1
  D22=I!O21/I!H21-1 E22=I!V21/I!O21-1 F22:J22=I!AC21/I!V21-1 D23=I!O6/((B!D37+B!C37)*0.5) E23=I!V6/((B!E37+B!D37)*0.5)
  F23:J23=I!AC6/((B!F37+B!E37)*0.5) C24=B!C58/I!H6 D24=B!D58/I!O6 E24=B!E58/I!V6 F24:J24=B!F58/I!AC6 C25=I!H36/100
  D25=I!O36/100 E25=I!V36/100 F25:J25=I!AC36/100 D26=I!O30/I!H30-1 E26=I!V30/I!O30-1 F26:J26=I!AC30/I!V30-1 C27=I!H49
  D27=I!O49 E27=I!V49 F27:J27=I!AC49"

/-! Overview and presentation. -/

def overview : List Dragged :=
  lines "C21=I!H49 D21=I!O49 E21=I!V49 F21:J21=I!AC49 C22=I!H21/I!H6 D22=I!O21/I!O6 E22=I!V21/I!V6
  F22:J22=I!AC21/I!AC6 C23=I!O41/I!O6 D23:E23=I!$V41/I!$V6 F23:J23=I!AC41/I!AC6 C24:J24=R!C19 E25=V!G13/I!V6
  F25:J25=V!$G13/I!AC6 E26=V!G13/I!V21 F26:J26=V!$G13/I!AC21 E27=V!G7/I!V49 F27:J27=V!$G7/I!AC49 E28=V!G7/I!V6
  F28:J28=V!$G7/I!AC6 B39,B57:G57=SUM(B32:B38)"

def presentation : List Dragged :=
  quarters ++ lines "V15:Y15=SUM(V8:V14)
  D25,F25,K25,M25,O25,R25,T25,Y25,AA25,AC25,D27:D31,F27,K27:K30,M27,O27,R27:R29,T27,Y27:Y31,AA27,AC27:AC31=B25+C25
  B26:G26,S26,AD26:AG26=B27+B28+B29+B30+B31 H26=H27+H28+H30+H29 I26=I27+I28+I30+I29+I61
  J26,L26:P26,R26,T26:AC26=J27+J28+J30+J29+J31 Q26=Q27+Q28+U30+Q29+Q31 F28:F31,M28:M31,T28:T31,AA28:AA31=E28+D28
  H29,O29:O30,V29,H31,R31,V31=F29+G29 R30=P30+U30 K31=I61+J31 B32:J32,M32:AG32=B25-B26 K32:L32=$L25-K26
  B33:J33,M33:AG33=B32/B25*100 K33:L33=K32/$L25*100
  D34:D35,F34:F35,H34:H35,K34:K35,M34:M35,O34:O35,R34:R35,T34:T35,V34:V35,Y34:Y35,AA34:AA35,AC34,D37,F37,H37=B34+C34
  B36:AG36=B32-(B34+B35) K37,M37,O37,R37,T37,Y37,AA37,AC37,M39,R39,T39,Y39,AA39=I37+J37 V37=61177+18485
  B38:AG38,B40:O40=B36+B37 P40:AG40=P38-P39
  D41:D43,F41:F43,K41:K43,M41:M43,R41:R43,T41:T43,Y41:Y43,AA41:AA43,AC41:AC42,H42:H43=B41+C41 AD41:AG41=AD40*33%
  B44:AG44=B40-B41-B42-B43 B45:AG45=B44 B47=B46/B45 C47:AG47=C37/C44 I58:J58=R!I23 C63:J63=R!C13 C64=I!H6/I!H10
  D64=I!O6/I!O10 E64=I!V6/I!V10 F64:J64=I!AC6/I!AC10 C65:J65=R!C14 C66:J66=R!C19"

end Sheetwork.Valuation
