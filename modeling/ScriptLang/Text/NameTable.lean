/-!
# Names of characters

The names of the characters of some blocks, in order. A line holds several names, divided by commas;
a character without a name leaves its place empty. What is common in names is written as one small
letter or sign there, and with a star a Latin capital letter and the small letter after it have
their names in one.
-/

namespace ScriptLang.Text

/-- What small letters and signs stand for in the lists of names. -/
def nameParts : List (Char × String) :=
  [('a', " ARROW"), ('b', "BOX DRAWINGS "), ('c', " CAPITAL LETTER "), ('d', "DOWN"),
   ('e', "ROMAN NUMERAL "), ('f', "LEFT"), ('g', "GREEK"), ('h', "HIRAGANA LETTER "),
   ('i', "WHITE "), ('j', "CIRCLE"), ('k', "KATAKANA LETTER "), ('l', "LATIN"), ('m', "SMALL "),
   ('n', " AND "), ('o', " SYMBOL"), ('p', " CAPITAL"), ('q', " SIGN"), ('r', "RIGHT"),
   ('s', " SMALL LETTER "), ('t', "POINTING "), ('u', "DOUBLE"), ('v', "VERTICAL"), ('w', " WITH "),
   ('x', "BLACK "), ('y', "CYRILLIC"), ('z', "HEAVY"), ('!', "HORIZONTAL"), ('#', " FACE"),
   ('$', "LIGHT"), ('%', "RIGHTWARDS"), ('&', "DINGBAT NEGATIVE CIRCLED "), ('+', " EQUAL TO"),
   ('.', " MARK"), (':', "SCRIPT"), (';', "COMBINING "), ('<', "SQUARE"),
   ('=', "SANS-SERIF DIGIT "), ('>', "VULGAR FRACTION "), ('?', "TRIANGLE"), ('@', "STROKE"),
   ('[', "LOWER "), (']', " BRACKET"), ('^', " QUOTATION MARK"), ('_', "CLOCK"), ('|', "UP"),
   ('~', " ORNAMENT"), ('(', "GREATER-THAN"), (')', "LEFTWARDS"), ('0', "REVERSED "),
   ('8', "HANGZHOU NUMERAL "), ('α', " WITH DIAERESIS"), ('β', " WITH CIRCUMFLEX"),
   ('γ', "QUADRANT"), ('δ', " EQUIVALENT TO"), ('ε', "IDEOGRAPHIC "), ('ζ', " ABOVE"),
   ('η', "LESS-THAN"), ('θ', "ASTERISK"), ('ι', "EMOJI MODIFIER FITZPATRICK TYPE-"),
   ('κ', "UPPER "), ('λ', " SINGLE"), ('μ', "THREE"), ('ν', "EIGHT"), ('ξ', "SHADOWED WHITE "),
   ('ο', "UPWARDS"), ('π', " HARPOON WITH BARB "), ('ρ', "RECYCLING SYMBOL FOR TYPE-"),
   ('σ', "CROSS"), ('τ', "DOWNWARDS"), ('υ', "LETTER"), ('φ', "DOUBLE-STRUCK"),
   ('χ', " POINTING BACKHAND INDEX"), ('ψ', "SMILING"), ('ω', " PARENTHESIS")]

/-- The short forms of the names of the characters from `first` on. -/
structure NameBlock where
  first : Nat
  lines : List String

namespace NameBlock

def latin : NameBlock :=
  ⟨0x20, [
   "SPACE,EXCLAMATION.,QUOTATION.,NUMBERq,DOLLARq,PERCENTq,AMPERSAND,APOSTROPHE,fω,rω,θ,PLUSq",
   "COMMA,HYPHEN-MINUS,FULL STOP,SOLIDUS,DIGIT ZERO,DIGIT ONE,DIGIT TWO,DIGIT μ,DIGIT FOUR",
   "DIGIT FIVE,DIGIT SIX,DIGIT SEVEN,DIGIT ν,DIGIT NINE,COLON,SEMICOLON,ηq,EQUALSq,(q,QUESTION.",
   "COMMERCIAL AT,lcA,lcB,lcC,lcD,lcE,lcF,lcG,lcH,lcI,lcJ,lcK,lcL,lcM,lcN,lcO,lcP,lcQ,lcR,lcS,lcT",
   "lcU,lcV,lcW,lcX,lcY,lcZ,f <],REVERSE SOLIDUS,r <],CIRCUMFLEX ACCENT,LOW LINE,GRAVE ACCENT,lsA",
   "lsB,lsC,lsD,lsE,lsF,lsG,lsH,lsI,lsJ,lsK,lsL,lsM,lsN,lsO,lsP,lsQ,lsR,lsS,lsT,lsU,lsV,lsW,lsX",
   "lsY,lsZ,f CURLY],v LINE,r CURLY],TILDE,,,,,,,,,,,,,,,,,,,,,,,,,,,,,,,,,,NO-BREAK SPACE",
   "INVERTED EXCLAMATION.,CENTq,POUNDq,CURRENCYq,YENq,BROKEN BAR,SECTIONq,DIAERESIS,COPYrq",
   "FEMININE ORDINAL INDICATOR,f-tu ANGLE^,NOTq,SOFT HYPHEN,REGISTEREDq,MACRON,DEGREEq",
   "PLUS-MINUSq,SUPER: TWO,SUPER: μ,ACUTE ACCENT,MICROq,PILCROWq,MIDDLE DOT,CEDILLA,SUPER: ONE",
   "MASCULINE ORDINAL INDICATOR,r-tu ANGLE^,>ONE QUARTER,>ONE HALF,>μ QUARTERS,INVERTED QUESTION.",
   "lcAwGRAVE,lcAwACUTE,lcAβ,lcAwTILDE,lcAα,lcAwRINGζ,lcAE,lcCwCEDILLA,lcEwGRAVE,lcEwACUTE,lcEβ",
   "lcEα,lcIwGRAVE,lcIwACUTE,lcIβ,lcIα,lcETH,lcNwTILDE,lcOwGRAVE,lcOwACUTE,lcOβ,lcOwTILDE,lcOα",
   "MULTIPLICATIONq,lcOw@,lcUwGRAVE,lcUwACUTE,lcUβ,lcUα,lcYwACUTE,lcTHORN,lsSHARP S,lsAwGRAVE",
   "lsAwACUTE,lsAβ,lsAwTILDE,lsAα,lsAwRINGζ,lsAE,lsCwCEDILLA,lsEwGRAVE,lsEwACUTE,lsEβ,lsEα",
   "lsIwGRAVE,lsIwACUTE,lsIβ,lsIα,lsETH,lsNwTILDE,lsOwGRAVE,lsOwACUTE,lsOβ,lsOwTILDE,lsOα",
   "DIVISIONq,lsOw@,lsUwGRAVE,lsUwACUTE,lsUβ,lsUα,lsYwACUTE,lsTHORN,lsYα,*AwMACRON,*AwBREVE",
   "*AwOGONEK,*CwACUTE,*Cβ,*CwDOTζ,*CwCARON,*DwCARON,*Dw@,*EwMACRON,*EwBREVE,*EwDOTζ,*EwOGONEK",
   "*EwCARON,*Gβ,*GwBREVE,*GwDOTζ,*GwCEDILLA,*Hβ,*Hw@,*IwTILDE,*IwMACRON,*IwBREVE,*IwOGONEK",
   "lcIwDOTζ,lsDOTLESS I,lp LIGATURE IJ,l mLIGATURE IJ,*Jβ,*KwCEDILLA,lsKRA,*LwACUTE,*LwCEDILLA",
   "*LwCARON,*LwMIDDLE DOT,*Lw@,*NwACUTE,*NwCEDILLA,*NwCARON,lsN PRECEDED BY APOSTROPHE,*ENG",
   "*OwMACRON,*OwBREVE,*Owu ACUTE,lp LIGATURE OE,l mLIGATURE OE,*RwACUTE,*RwCEDILLA,*RwCARON",
   "*SwACUTE,*Sβ,*SwCEDILLA,*SwCARON,*TwCEDILLA,*TwCARON,*Tw@,*UwTILDE,*UwMACRON,*UwBREVE",
   "*UwRINGζ,*Uwu ACUTE,*UwOGONEK,*Wβ,*Yβ,lcYα,*ZwACUTE,*ZwDOTζ,*ZwCARON,lsLONG S,lsBw@,lcBwHOOK",
   "*BwTOPBAR,*TONE SIX,lcOPEN O,*CwHOOK,lcAFRICAN D,lcDwHOOK,*DwTOPBAR,lsTURNED DELTA,lc0E",
   "lcSCHWA,lcOPEN E,*FwHOOK,lcGwHOOK,lcGAMMA,lsHV,lcIOTA,lcIw@,*KwHOOK,lsLwBAR,lsLAMBDAw@",
   "lcTURNED M,lcNwf HOOK,lsNwLONG r LEG,lcOwMIDDLE TILDE,*OwHORN,*OI,*PwHOOK,l υ YR,*TONE TWO",
   "lcESH,l υ 0ESH LOOP,lsTwPALATAL HOOK,*TwHOOK,lcTwRETROFLEX HOOK,*UwHORN,lcUPSILON,lcVwHOOK",
   "*YwHOOK,*Zw@,lcEZH,*EZH REVERSED,lsEZHwTAIL,l υ TWOw@,*TONE FIVE,l υ INVERTED GLOTTAL STOPw@",
   "l υ WYNN,l υ DENTAL CLICK,l υ LATERAL CLICK,l υ ALVEOLAR CLICK,l υ RETROFLEX CLICK,lcDZwCARON",
   "lcDwmυ ZwCARON,lsDZwCARON,lcLJ,lcLwmυ J,lsLJ,lcNJ,lcNwmυ J,lsNJ,*AwCARON,*IwCARON,*OwCARON",
   "*UwCARON,*UαnMACRON,*UαnACUTE,*UαnCARON,*UαnGRAVE,lsTURNED E,*AαnMACRON,*AwDOTζnMACRON",
   "*AEwMACRON,*Gw@,*GwCARON,*KwCARON,*OwOGONEK,*OwOGONEKnMACRON,*EZHwCARON,lsJwCARON,lcDZ",
   "lcDwmυ Z,lsDZ,*GwACUTE,lcHWAIR,lcWYNN,*NwGRAVE,*AwRINGζnACUTE,*AEwACUTE,*Ow@nACUTE,*Awu GRAVE",
   "*AwINVERTED BREVE,*Ewu GRAVE,*EwINVERTED BREVE,*Iwu GRAVE,*IwINVERTED BREVE,*Owu GRAVE",
   "*OwINVERTED BREVE,*Rwu GRAVE,*RwINVERTED BREVE,*Uwu GRAVE,*UwINVERTED BREVE,*SwCOMMA BELOW",
   "*TwCOMMA BELOW,*YOGH,*HwCARON,lcNwLONG r LEG,lsDwCURL,*OU,*ZwHOOK,*AwDOTζ,*EwCEDILLA",
   "*OαnMACRON,*OwTILDEnMACRON,*OwDOTζ,*OwDOTζnMACRON,*YwMACRON,lsLwCURL,lsNwCURL,lsTwCURL",
   "lsDOTLESS J,lsDB DIGRAPH,lsQP DIGRAPH,lcAw@,*Cw@,lcLwBAR,lcTwDIAGONAL @,lsSwSWASH TAIL",
   "lsZwSWASH TAIL,*GLOTTAL STOP,lcBw@,lcU BAR,lcTURNED V,*Ew@,*Jw@,lcmQwHOOK TAIL,lsQwHOOK TAIL",
   "*Rw@,*Yw@"]⟩

def greek : NameBlock :=
  ⟨0x370, [
   "gcHETA,gsHETA,gcARCHAIC SAMPI,gsARCHAIC SAMPI,g NUMERALq,g [NUMERALq,gcPAMPHYLIAN DIGAMMA",
   "gsPAMPHYLIAN DIGAMMA,,,g YPOGEGRAMMENI,g m0LUNATE SIGMAo,g mDOTTED LUNATE SIGMAo",
   "g m0DOTTED LUNATE SIGMAo,g QUESTION.,gcYOT,,,,,g TONOS,g DIALYTIKA TONOS,gcALPHAwTONOS",
   "g ANO TELEIA,gcEPSILONwTONOS,gcETAwTONOS,gcIOTAwTONOS,,gcOMICRONwTONOS,,gcUPSILONwTONOS",
   "gcOMEGAwTONOS,gsIOTAwDIALYTIKAnTONOS,gcALPHA,gcBETA,gcGAMMA,gcDELTA,gcEPSILON,gcZETA,gcETA",
   "gcTHETA,gcIOTA,gcKAPPA,gcLAMDA,gcMU,gcNU,gcXI,gcOMICRON,gcPI,gcRHO,,gcSIGMA,gcTAU,gcUPSILON",
   "gcPHI,gcCHI,gcPSI,gcOMEGA,gcIOTAwDIALYTIKA,gcUPSILONwDIALYTIKA,gsALPHAwTONOS,gsEPSILONwTONOS",
   "gsETAwTONOS,gsIOTAwTONOS,gsUPSILONwDIALYTIKAnTONOS,gsALPHA,gsBETA,gsGAMMA,gsDELTA,gsEPSILON",
   "gsZETA,gsETA,gsTHETA,gsIOTA,gsKAPPA,gsLAMDA,gsMU,gsNU,gsXI,gsOMICRON,gsPI,gsRHO,gsFINAL SIGMA",
   "gsSIGMA,gsTAU,gsUPSILON,gsPHI,gsCHI,gsPSI,gsOMEGA,gsIOTAwDIALYTIKA,gsUPSILONwDIALYTIKA",
   "gsOMICRONwTONOS,gsUPSILONwTONOS,gsOMEGAwTONOS,gp KAIo,g BETAo,g THETAo,g UPSILONwHOOKo",
   "g UPSILONwACUTEnHOOKo,g UPSILONαnHOOKo,g PHIo,g PIo,g KAIo,g υ ARCHAIC KOPPA,gsARCHAIC KOPPA",
   "g υ STIGMA,gsSTIGMA,g υ DIGAMMA,gsDIGAMMA,g υ KOPPA,gsKOPPA,g υ SAMPI,gsSAMPI,COPTICcSHEI",
   "COPTICsSHEI,COPTICcFEI,COPTICsFEI,COPTICcKHEI,COPTICsKHEI,COPTICcHORI,COPTICsHORI",
   "COPTICcGANGIA,COPTICsGANGIA,COPTICcSHIMA,COPTICsSHIMA,COPTICcDEI,COPTICsDEI,g KAPPAo,g RHOo",
   "g LUNATE SIGMAo,g υ YOT,gp THETAo,g LUNATE EPSILONo,g 0LUNATE EPSILONo,gcSHO,gsSHO",
   "gp LUNATE SIGMAo,gcSAN,gsSAN,g RHOw@o,gp 0LUNATE SIGMAo,gp DOTTED LUNATE SIGMAo",
   "gp 0DOTTED LUNATE SIGMAo"]⟩

def cyrillic : NameBlock :=
  ⟨0x400, [
   "ycIEwGRAVE,ycIO,ycDJE,ycGJE,ycUKRAINIAN IE,ycDZE,ycBYELORUSSIAN-UKRAINIAN I,ycYI,ycJE,ycLJE",
   "ycNJE,ycTSHE,ycKJE,ycIwGRAVE,ycSHORT U,ycDZHE,ycA,ycBE,ycVE,ycGHE,ycDE,ycIE,ycZHE,ycZE,ycI",
   "ycSHORT I,ycKA,ycEL,ycEM,ycEN,ycO,ycPE,ycER,ycES,ycTE,ycU,ycEF,ycHA,ycTSE,ycCHE,ycSHA,ycSHCHA",
   "ycHARDq,ycYERU,ycSOFTq,ycE,ycYU,ycYA,ysA,ysBE,ysVE,ysGHE,ysDE,ysIE,ysZHE,ysZE,ysI,ysSHORT I",
   "ysKA,ysEL,ysEM,ysEN,ysO,ysPE,ysER,ysES,ysTE,ysU,ysEF,ysHA,ysTSE,ysCHE,ysSHA,ysSHCHA,ysHARDq",
   "ysYERU,ysSOFTq,ysE,ysYU,ysYA,ysIEwGRAVE,ysIO,ysDJE,ysGJE,ysUKRAINIAN IE,ysDZE",
   "ysBYELORUSSIAN-UKRAINIAN I,ysYI,ysJE,ysLJE,ysNJE,ysTSHE,ysKJE,ysIwGRAVE,ysSHORT U,ysDZHE"]⟩

def punctuation : NameBlock :=
  ⟨0x2000, [
   "EN QUAD,EM QUAD,EN SPACE,EM SPACE,μ-PER-EM SPACE,FOUR-PER-EM SPACE,SIX-PER-EM SPACE",
   "FIGURE SPACE,PUNCTUATION SPACE,THIN SPACE,HAIR SPACE,ZERO WIDTH SPACE,ZERO WIDTH NON-JOINER",
   "ZERO WIDTH JOINER,f-TO-r.,r-TO-f.,HYPHEN,NON-BREAKING HYPHEN,FIGURE DASH,EN DASH,EM DASH",
   "! BAR,u v LINE,u LOW LINE,fλ^,rλ^,SINGLE LOW-9^,SINGLE HIGH-REVERSED-9^,f u^,r u^,u LOW-9^",
   "u HIGH-REVERSED-9^,DAGGER,u DAGGER,BULLET,TRIANGULAR BULLET,ONE DOT LEADER,TWO DOT LEADER",
   "! ELLIPSIS,HYPHENATION POINT,LINE SEPARATOR,PARAGRAPH SEPARATOR,f-TO-r EMBEDDING",
   "r-TO-f EMBEDDING,POP DIRECTIONAL FORMATTING,f-TO-r OVERRIDE,r-TO-f OVERRIDE",
   "NARROW NO-BREAK SPACE,PER MILLEq,PER TEN THOUSANDq,PRIME,u PRIME,TRIPLE PRIME,0PRIME,0u PRIME",
   "0TRIPLE PRIME,CARET,SINGLE f-tANGLE^,SINGLE r-tANGLE^,REFERENCE.,u EXCLAMATION.,INTERROBANG",
   "OVERLINE,UNDERTIE,CHARACTER TIE,CARET INSERTION POINT,ASTERISM,HYPHEN BULLET,FRACTION SLASH",
   "f <]wQUILL,r <]wQUILL,u QUESTION.,QUESTION EXCLAMATION.,EXCLAMATION QUESTION.,TIRONIANq ET",
   "0PILCROWq,x) BULLET,x% BULLET,LOW θ,0SEMICOLON,CLOSE |,TWO θS ALIGNED vLY,COMMERCIAL MINUSq",
   "SWUNG DASH,INVERTED UNDERTIE,F[PUNCTUATION.,μ DOT PUNCTUATION,QUADRUPLE PRIME",
   "FOUR DOT PUNCTUATION,FIVE DOT PUNCTUATION,TWO DOT PUNCTUATION,FOUR DOT.,DOTTED σ,TRICOLON",
   "v FOUR DOTS,MEDIUM MATHEMATICAL SPACE,WORD JOINER,FUNCTION APPLICATION,INVISIBLE TIMES",
   "INVISIBLE SEPARATOR,INVISIBLE PLUS,,f-TO-r ISOLATE,r-TO-f ISOLATE,FIRST STRONG ISOLATE",
   "POP DIRECTIONAL ISOLATE,INHIBIT SYMMETRIC SWAPPING,ACTIVATE SYMMETRIC SWAPPING",
   "INHIBIT ARABIC FORM SHAPING,ACTIVATE ARABIC FORM SHAPING,NATIONAL DIGIT SHAPES",
   "NOMINAL DIGIT SHAPES"]⟩

def letterlike : NameBlock :=
  ⟨0x2070, [
   "SUPER: ZERO,SUPER: lsI,,,SUPER: FOUR,SUPER: FIVE,SUPER: SIX,SUPER: SEVEN,SUPER: ν,SUPER: NINE",
   "SUPER: PLUSq,SUPER: MINUS,SUPER: EQUALSq,SUPER: fω,SUPER: rω,SUPER: lsN,SUB: ZERO,SUB: ONE",
   "SUB: TWO,SUB: μ,SUB: FOUR,SUB: FIVE,SUB: SIX,SUB: SEVEN,SUB: ν,SUB: NINE,SUB: PLUSq",
   "SUB: MINUS,SUB: EQUALSq,SUB: fω,SUB: rω,,l SUB:sA,l SUB:sE,l SUB:sO,l SUB:sX,l SUB:sSCHWA",
   "l SUB:sH,l SUB:sK,l SUB:sL,l SUB:sM,l SUB:sN,l SUB:sP,l SUB:sS,l SUB:sT,,,,EURO-CURRENCYq",
   "COLONq,CRUZEIROq,FRENCH FRANCq,LIRAq,MILLq,NAIRAq,PESETAq,RUPEEq,WONq,NEW SHEQELq,DONGq,EUROq",
   "KIPq,TUGRIKq,DRACHMAq,GERMAN PENNYq,PESOq,GUARANIq,AUSTRALq,HRYVNIAq,CEDIq,LIVRE TOURNOISq",
   "SPESMILOq,TENGEq,INDIAN RUPEEq,TURKISH LIRAq,NORDIC.q,MANATq,RUBLEq,LARIq,BITCOINq,SOMq,,,,,,",
   ",,,,,,,,,;f HARPOONζ,;r HARPOONζ,;LONG v LINE OVERLAY,;SHORT v LINE OVERLAY,;ANTI_WISEaζ",
   ";_WISEaζ,;faζ,;raζ,;RING OVERLAY,;_WISE RING OVERLAY,;ANTI_WISE RING OVERLAY,;μ DOTSζ",
   ";FOUR DOTSζ,;ENCLOSING j,;ENCLOSING <,;ENCLOSING DIAMOND,;ENCLOSING j BACKSLASH,;f raζ",
   ";ENCLOSING SCREEN,;ENCLOSING KEYCAP,;ENCLOSING UPWARD t?,;REVERSE SOLIDUS OVERLAY",
   ";u v @ OVERLAY,;ANNUITYo,;TRIPLE UNDERDOT,;WIDE BRIDGEζ,;)a OVERLAY,;LONG u SOLIDUS OVERLAY",
   ";%πτ,;)πτ,;fa BELOW,;ra BELOW,;θζ,,,,,,,,,,,,,,,,ACCOUNT OF,ADDRESSED TO THE SUBJECT,φp C",
   "DEGREE CELSIUS,CENTRE LINEo,CARE OF,CADA UNA,EULER CONSTANT,SCRUPLE,DEGREE FAHRENHEIT,: mG",
   ":p H,BLACK-υp H,φp H,PLANCK CONSTANT,PLANCK CONSTANT OVER TWO PI,:p I,BLACK-υp I,:p L,: mL",
   "L B BARo,φp N,NUMEROq,SOUND RECORDING COPYr,:p P,φp P,φp Q,:p R,BLACK-υp R,φp R,PRE:ION TAKE",
   "RESPONSE,SERVICE.,TELEPHONEq,TRADE.q,VERSICLE,φp Z,OUNCEq,OHMq,INVERTED OHMq,BLACK-υp Z",
   "TURNED gsIOTA,KELVINq,ANGSTROMq,:p B,BLACK-υp C,ESTIMATEDo,: mE,:p E,:p F,TURNEDp F,:p M,: mO",
   "ALEFo,BETo,GIMELo,DALETo,INFORMATION SOURCE,ROTATEDp Q,FACSIMILEq,φ mPI,φ mGAMMA,φp GAMMA",
   "φp PI,φ N-ARY SUMMATION,TURNED SANS-SERIFp G,TURNED SANS-SERIFp L,0SANS-SERIFp L",
   "TURNED SANS-SERIFp Y,φ ITALICp D,φ ITALIC mD,φ ITALIC mE,φ ITALIC mI,φ ITALIC mJ",
   "PROPERTY LINE,TURNED AMPERSAND,PERq,AKTIESELSKAB,TURNED mF,SYMBOL FOR SAMARITAN SOURCE",
   ">ONE SEVENTH,>ONE NINTH,>ONE TENTH,>ONE THIRD,>TWO THIRDS,>ONE FIFTH,>TWO FIFTHS,>μ FIFTHS",
   ">FOUR FIFTHS,>ONE SIXTH,>FIVE SIXTHS,>ONE νH,>μ νHS,>FIVE νHS,>SEVEN νHS",
   "FRACTION NUMERATOR ONE,eONE,eTWO,eμ,eFOUR,eFIVE,eSIX,eSEVEN,eν,eNINE,eTEN,eELEVEN,eTWELVE",
   "eFIFTY,eONE HUNDRED,eFIVE HUNDRED,eONE THOUSAND,meONE,meTWO,meμ,meFOUR,meFIVE,meSIX,meSEVEN",
   "meν,meNINE,meTEN,meELEVEN,meTWELVE,meFIFTY,meONE HUNDRED,meFIVE HUNDRED,meONE THOUSAND",
   "eONE THOUSAND C D,eFIVE THOUSAND,eTEN THOUSAND,e0ONE HUNDRED,ls0C,eSIX LATE FORM",
   "eFIFTY EARLY FORM,eFIFTY THOUSAND,eONE HUNDRED THOUSAND,>ZERO THIRDS,TURNED DIGIT TWO",
   "TURNED DIGIT μ"]⟩

def arrows : NameBlock :=
  ⟨0x2190, [
   ")a,οa,%a,τa,f ra,| da,NORTH WESTa,NORTH EASTa,SOUTH EASTa,SOUTH WESTa,)aw@,%aw@,) WAVEa",
   "% WAVEa,) TWO HEADEDa,ο TWO HEADEDa,% TWO HEADEDa,τ TWO HEADEDa,)awTAIL,%awTAIL,)a FROM BAR",
   "οa FROM BAR,%a FROM BAR,τa FROM BAR,| dawBASE,)awHOOK,%awHOOK,)awLOOP,%awLOOP,f r WAVEa",
   "f raw@,τ ZIGZAGa,οawTIP ),οawTIP %,τawTIP ),τawTIP %,%awCORNER τ,τawCORNER )",
   "ANTI_WISE TOP SEMIja,_WISE TOP SEMIja,NORTH WESTa TO LONG BAR,)a TO BAR OVER %a TO BAR",
   "ANTI_WISE OPEN ja,_WISE OPEN ja,)πο,)πτ,οπ%,οπ),%πο,%πτ,τπ%,τπ),%a OVER )a,οa ) OF τa",
   ")a OVER %a,) PAIREDaS,ο PAIREDaS,% PAIREDaS,τ PAIREDaS,) HARPOON OVER % HARPOON",
   "% HARPOON OVER ) HARPOON,) uaw@,f r uaw@,% uaw@,) ua,ο ua,% ua,τ ua,f r ua,| d ua",
   "NORTH WEST ua,NORTH EAST ua,SOUTH EAST ua,SOUTH WEST ua,) TRIPLEa,% TRIPLEa,) SQUIGGLEa",
   "% SQUIGGLEa,οawu @,τawu @,) DASHEDa,ο DASHEDa,% DASHEDa,τ DASHEDa,)a TO BAR,%a TO BAR",
   ") WHITEa,ο WHITEa,% WHITEa,τ WHITEa,ο WHITEa FROM BAR,ο WHITEa ON PEDESTAL",
   "ο WHITEa ON PEDESTALw! BAR,ο WHITEa ON PEDESTALwv BAR,ο iua,ο iua ON PEDESTAL",
   "% WHITEa FROM WALL,NORTH WESTa TO CORNER,SOUTH EASTa TO CORNER,| d WHITEa,rawmj,τa ) OF οa",
   "μ %aS,)awv @,%awv @,f rawv @,)awu v @,%awu v @,f rawu v @,) OPEN-HEADEDa,% OPEN-HEADEDa",
   "f r OPEN-HEADEDa"]⟩

def operators : NameBlock :=
  ⟨0x2200, [
   "FOR ALL,COMPLEMENT,PARTIAL DIFFERENTIAL,THERE EXISTS,THERE DOES NOT EXIST,EMPTY SET,INCREMENT",
   "NABLA,ELEMENT OF,NOT AN ELEMENT OF,mELEMENT OF,CONTAINS AS MEMBER,DOES NOT CONTAIN AS MEMBER",
   "mCONTAINS AS MEMBER,END OF PROOF,N-ARY PRODUCT,N-ARY COPRODUCT,N-ARY SUMMATION,MINUSq",
   "MINUS-OR-PLUSq,DOT PLUS,DIVISION SLASH,SET MINUS,θ OPERATOR,RING OPERATOR,BULLET OPERATOR",
   "< ROOT,CUBE ROOT,FOURTH ROOT,PROPORTIONAL TO,INFINITY,r ANGLE,ANGLE,MEASURED ANGLE",
   "SPHERICAL ANGLE,DIVIDES,DOES NOT DIVIDE,PARALLEL TO,NOT PARALLEL TO,LOGICAL AND,LOGICAL OR",
   "INTERSECTION,UNION,INTEGRAL,u INTEGRAL,TRIPLE INTEGRAL,CONTOUR INTEGRAL,SURFACE INTEGRAL",
   "VOLUME INTEGRAL,_WISE INTEGRAL,_WISE CONTOUR INTEGRAL,ANTI_WISE CONTOUR INTEGRAL,THEREFORE",
   "BECAUSE,RATIO,PROPORTION,DOT MINUS,EXCESS,GEOMETRIC PROPORTION,HOMOTHETIC,TILDE OPERATOR",
   "0TILDE,INVERTED LAZY S,SINE WAVE,WREATH PRODUCT,NOT TILDE,MINUS TILDE,ASYMPTOTICALLY+",
   "NOT ASYMPTOTICALLY+,APPROXIMATELY+,APPROXIMATELY BUT NOT ACTUALLY+",
   "NEITHER APPROXIMATELY NOR ACTUALLY+,ALMOST+,NOT ALMOST+,ALMOST EQUAL OR+,TRIPLE TILDE,ALL+",
   "EQUIVALENT TO,GEOMETRICALLYδ,DIFFERENCE BETWEEN,APPROACHES THE LIMIT,GEOMETRICALLY+",
   "APPROXIMATELY+ OR THE IMAGE OF,IMAGE OF OR APPROXIMATELY+,COLON EQUALS,EQUALS COLON,RING IN+",
   "RING+,CORRESPONDS TO,ESTIMATES,EQUIANGULAR TO,STAR EQUALS,DELTA+,EQUAL TO BY DEFINITION",
   "MEASURED BY,QUESTIONED+,NOT+,IDENTICAL TO,NOT IDENTICAL TO,STRICTLYδ,η OR+,( OR+,η OVER+",
   "( OVER+,η BUT NOT+,( BUT NOT+,MUCH η,MUCH (,BETWEEN,NOTδ,NOT η,NOT (,NEITHER η NOR+",
   "NEITHER ( NOR+,η ORδ,( ORδ,NEITHER η NORδ,NEITHER ( NORδ,η OR (,( OR η,NEITHER η NOR (",
   "NEITHER ( NOR η,PRECEDES,SUCCEEDS,PRECEDES OR+,SUCCEEDS OR+,PRECEDES ORδ,SUCCEEDS ORδ",
   "DOES NOT PRECEDE,DOES NOT SUCCEED,SUBSET OF,SUPERSET OF,NOT A SUBSET OF,NOT A SUPERSET OF",
   "SUBSET OF OR+,SUPERSET OF OR+,NEITHER A SUBSET OF NOR+,NEITHER A SUPERSET OF NOR+",
   "SUBSET OFwNOT+,SUPERSET OFwNOT+,MULTISET,MULTISET MULTIPLICATION,MULTISET UNION,< IMAGE OF",
   "< ORIGINAL OF,< IMAGE OF OR+,< ORIGINAL OF OR+,< CAP,< CUP,jD PLUS,jD MINUS,jD TIMES",
   "jD DIVISION SLASH,jD DOT OPERATOR,jD RING OPERATOR,jD θ OPERATOR,jD EQUALS,jD DASH,<D PLUS",
   "<D MINUS,<D TIMES,<D DOT OPERATOR,r TACK,f TACK,d TACK,| TACK,ASSERTION,MODELS,TRUE,FORCES",
   "TRIPLE v BAR r TURNSTILE,u v BAR u r TURNSTILE,DOES NOT PROVE,NOT TRUE,DOES NOT FORCE",
   "NEGATED u v BAR u r TURNSTILE,PRECEDES UNDER RELATION,SUCCEEDS UNDER RELATION",
   "NORMAL SUBGROUP OF,CONTAINS AS NORMAL SUBGROUP,NORMAL SUBGROUP OF OR+",
   "CONTAINS AS NORMAL SUBGROUP OR+,ORIGINAL OF,IMAGE OF,MULTIMAP,HERMITIAN CONJUGATE MATRIX",
   "INTERCALATE,XOR,NAND,NOR,r ANGLEwARC,r ?,N-ARY LOGICAL AND,N-ARY LOGICAL OR",
   "N-ARY INTERSECTION,N-ARY UNION,DIAMOND OPERATOR,DOT OPERATOR,STAR OPERATOR,DIVISION TIMES",
   "BOWTIE,f NORMAL FACTOR SEMIDIRECT PRODUCT,r NORMAL FACTOR SEMIDIRECT PRODUCT",
   "f SEMIDIRECT PRODUCT,r SEMIDIRECT PRODUCT,0TILDE EQUALS,CURLY LOGICAL OR,CURLY LOGICAL AND",
   "u SUBSET,u SUPERSET,u INTERSECTION,u UNION,PITCHFORK,EQUALnPARALLEL TO,ηwDOT,(wDOT",
   "VERY MUCH η,VERY MUCH (,η+ OR (,(+ OR η,EQUAL TO OR η,EQUAL TO OR (,EQUAL TO OR PRECEDES",
   "EQUAL TO OR SUCCEEDS,DOES NOT PRECEDE OR EQUAL,DOES NOT SUCCEED OR EQUAL,NOT < IMAGE OF OR+",
   "NOT < ORIGINAL OF OR+,< IMAGE OF OR NOT+,< ORIGINAL OF OR NOT+,η BUT NOTδ,( BUT NOTδ",
   "PRECEDES BUT NOTδ,SUCCEEDS BUT NOTδ,NOT NORMAL SUBGROUP OF",
   "DOES NOT CONTAIN AS NORMAL SUBGROUP,NOT NORMAL SUBGROUP OF OR+",
   "DOES NOT CONTAIN AS NORMAL SUBGROUP OR EQUAL,v ELLIPSIS,MIDLINE ! ELLIPSIS",
   "| r DIAGONAL ELLIPSIS,d r DIAGONAL ELLIPSIS,ELEMENT OFwLONG ! @",
   "ELEMENT OFwv BAR AT END OF ! @,mELEMENT OFwv BAR AT END OF ! @,ELEMENT OFwDOTζ",
   "ELEMENT OFwOVERBAR,mELEMENT OFwOVERBAR,ELEMENT OFwUNDERBAR,ELEMENT OFwTWO ! @S",
   "CONTAINSwLONG ! @,CONTAINSwv BAR AT END OF ! @,mCONTAINSwv BAR AT END OF ! @,CONTAINSwOVERBAR",
   "mCONTAINSwOVERBAR,Z NOTATION BAG MEMBERSHIP"]⟩

def shapes : NameBlock :=
  ⟨0x2500, [
   "b$ !,bz !,b$ v,bz v,b$ TRIPLE DASH !,bz TRIPLE DASH !,b$ TRIPLE DASH v,bz TRIPLE DASH v",
   "b$ QUADRUPLE DASH !,bz QUADRUPLE DASH !,b$ QUADRUPLE DASH v,bz QUADRUPLE DASH v,b$ dnr",
   "bd $nr z,bd znr $,bz dnr,b$ dnf,bd $nf z,bd znf $,bz dnf,b$ |nr,b| $nr z,b| znr $,bz |nr",
   "b$ |nf,b| $nf z,b| znf $,bz |nf,b$ vnr,bv $nr z,b| znr d $,bd znr | $,bv znr $,bd $nr | z",
   "b| $nr d z,bz vnr,b$ vnf,bv $nf z,b| znf d $,bd znf | $,bv znf $,bd $nf | z,b| $nf d z,bz vnf",
   "b$ dn!,bf znr d $,br znf d $,bd $n! z,bd zn! $,br $nf d z,bf $nr d z,bz dn!,b$ |n!,bf znr | $",
   "br znf | $,b| $n! z,b| zn! $,br $nf | z,bf $nr | z,bz |n!,b$ vn!,bf znr v $,br znf v $",
   "bv $n! z,b| znd ! $,bd zn| ! $,bv zn! $,bf | znr d $,br | znf d $,bf d znr | $,br d znf | $",
   "bd $n| ! z,b| $nd ! z,br $nf v z,bf $nr v z,bz vn!,b$ u DASH !,bz u DASH !,b$ u DASH v",
   "bz u DASH v,bu !,bu v,bdλnr u,bd unrλ,bu dnr,bdλnf u,bd unfλ,bu dnf,b|λnr u,b| unrλ,bu |nr",
   "b|λnf u,b| unfλ,bu |nf,bvλnr u,bv unrλ,bu vnr,bvλnf u,bv unfλ,bu vnf,bdλn! u,bd un!λ,bu dn!",
   "b|λn! u,b| un!λ,bu |n!,bvλn! u,bv un!λ,bu vn!,b$ ARC dnr,b$ ARC dnf,b$ ARC |nf,b$ ARC |nr",
   "b$ DIAGONAL κr TO [f,b$ DIAGONAL κf TO [r,b$ DIAGONAL σ,b$ f,b$ |,b$ r,b$ d,bz f,bz |,bz r",
   "bz d,b$ fnz r,b$ |nz d,bz fn$ r,bz |n$ d,κHALF BLOCK,[ONE νH BLOCK,[ONE QUARTER BLOCK",
   "[μ νHS BLOCK,[HALF BLOCK,[FIVE νHS BLOCK,[μ QUARTERS BLOCK,[SEVEN νHS BLOCK,FULL BLOCK",
   "f SEVEN νHS BLOCK,f μ QUARTERS BLOCK,f FIVE νHS BLOCK,f HALF BLOCK,f μ νHS BLOCK",
   "f ONE QUARTER BLOCK,f ONE νH BLOCK,r HALF BLOCK,$ SHADE,MEDIUM SHADE,DARK SHADE,κONE νH BLOCK",
   "r ONE νH BLOCK,γ [f,γ [r,γ κf,γ κfn[fn[r,γ κfn[r,γ κfnκrn[f,γ κfnκrn[r,γ κr,γ κrn[f",
   "γ κrn[fn[r,x<,i<,i<wROUNDED CORNERS,i< CONTAINING xm<,<w! FILL,<wv FILL",
   "<wORTHOGONAL σHATCH FILL,<wκf TO [r FILL,<wκr TO [f FILL,<wDIAGONAL σHATCH FILL,xm<,im<",
   "xRECTANGLE,iRECTANGLE,xv RECTANGLE,iv RECTANGLE,xPARALLELOGRAM,iPARALLELOGRAM,x|-t?,i|-t?",
   "x|-tm?,i|-tm?,xr-t?,ir-t?,xr-tm?,ir-tm?,xr-tPOINTER,ir-tPOINTER,xd-t?,id-t?,xd-tm?,id-tm?",
   "xf-t?,if-t?,xf-tm?,if-tm?,xf-tPOINTER,if-tPOINTER,xDIAMOND,iDIAMOND",
   "iDIAMOND CONTAINING xmDIAMOND,FISHEYE,LOZENGE,ij,DOTTED j,jwv FILL,BULLSEYE,xj,jwf HALF BLACK",
   "jwr HALF BLACK,jw[HALF BLACK,jwκHALF BLACK,jwκr γ BLACK,jwALL BUT κf γ BLACK,f HALF xj",
   "r HALF xj,INVERSE BULLET,INVERSE ij,κHALF INVERSE ij,[HALF INVERSE ij,κf γ CIRCULAR ARC",
   "κr γ CIRCULAR ARC,[r γ CIRCULAR ARC,[f γ CIRCULAR ARC,κHALF j,[HALF j,x[r ?,x[f ?,xκf ?,xκr ?",
   "iBULLET,<wf HALF BLACK,<wr HALF BLACK,<wκf DIAGONAL HALF BLACK,<w[r DIAGONAL HALF BLACK",
   "i<wv BISECTING LINE,i|-t?wDOT,|-t?wf HALF BLACK,|-t?wr HALF BLACK,LARGE j,i<wκf γ,i<w[f γ",
   "i<w[r γ,i<wκr γ,ijwκf γ,ijw[f γ,ijw[r γ,ijwκr γ,κf ?,κr ?,[f ?,iMEDIUM <,xMEDIUM <,iMEDIUM m<",
   "xMEDIUM m<,[r ?"]⟩

def symbols : NameBlock :=
  ⟨0x2600, [
   "xSUNwRAYS,CLOUD,UMBRELLA,SNOWMAN,COMET,xSTAR,iSTAR,$NING,THUNDERSTORM,SUN,ASCENDING NODE",
   "DESCENDING NODE,CONJUNCTION,OPPOSITION,xTELEPHONE,iTELEPHONE,BALLOT BOX,BALLOT BOXwCHECK",
   "BALLOT BOXwX,SALTIRE,UMBRELLAwRAIN DROPS,HOT BEVERAGE,iSHOGI PIECE,xSHOGI PIECE,SHAMROCK",
   "0ROTATED FLORAL HEART BULLET,xf tINDEX,xr tINDEX,if tINDEX,i| tINDEX,ir tINDEX,id tINDEX",
   "SKULLnσBONES,CAUTIONq,RADIOACTIVEq,BIOHAZARDq,CADUCEUS,ANKH,ORTHODOX σ,CHI RHO,σ OF LORRAINE",
   "σ OF JERUSALEM,STARnCRESCENT,FARSIo,ADI SHAKTI,HAMMERnSICKLE,PEACEo,YIN YANG",
   "TRIGRAM FOR HEAVEN,TRIGRAM FOR LAKE,TRIGRAM FOR FIRE,TRIGRAM FOR THUNDER,TRIGRAM FOR WIND",
   "TRIGRAM FOR WATER,TRIGRAM FOR MOUNTAIN,TRIGRAM FOR EARTH,WHEEL OF DHARMA,iFROWNING#,iψ#,xψ#",
   "iSUNwRAYS,FIRST QUARTER MOON,LAST QUARTER MOON,MERCURY,FEMALEq,EARTH,MALEq,JUPITER,SATURN",
   "URANUS,NEPTUNE,PLUTO,ARIES,TAURUS,GEMINI,CANCER,LEO,VIRGO,LIBRA,SCORPIUS,SAGITTARIUS",
   "CAPRICORN,AQUARIUS,PISCES,iCHESS KING,iCHESS QUEEN,iCHESS ROOK,iCHESS BISHOP,iCHESS KNIGHT",
   "iCHESS PAWN,xCHESS KING,xCHESS QUEEN,xCHESS ROOK,xCHESS BISHOP,xCHESS KNIGHT,xCHESS PAWN",
   "xSPADE SUIT,iHEART SUIT,iDIAMOND SUIT,xCLUB SUIT,iSPADE SUIT,xHEART SUIT,xDIAMOND SUIT",
   "iCLUB SUIT,HOT SPRINGS,QUARTER NOTE,νH NOTE,BEAMED νH NOTES,BEAMED SIXTEENTH NOTES",
   "MUSIC FLATq,MUSIC NATURALq,MUSIC SHARPq,WEST SYRIAC σ,EAST SYRIAC σ,UNIVERSAL RECYCLINGo",
   "ρ1 PLASTICS,ρ2 PLASTICS,ρ3 PLASTICS,ρ4 PLASTICS,ρ5 PLASTICS,ρ6 PLASTICS,ρ7 PLASTICS",
   "RECYCLINGo FOR GENERIC MATERIALS,xUNIVERSAL RECYCLINGo,RECYCLED PAPERo",
   "PARTIALLY-RECYCLED PAPERo,PERMANENT PAPERq,WHEELCHAIRo,DIE#-1,DIE#-2,DIE#-3,DIE#-4,DIE#-5",
   "DIE#-6,ijwDOT r,ijwTWO DOTS,xjwiDOT r,xjwTWO iDOTS,MONOGRAM FOR YANG,MONOGRAM FOR YIN",
   "DIGRAM FOR GREATER YANG,DIGRAM FOR LESSER YIN,DIGRAM FOR LESSER YANG,DIGRAM FOR GREATER YIN",
   "iFLAG,xFLAG,HAMMERnPICK,ANCHOR,σED SWORDS,STAFF OF AESCULAPIUS,SCALES,ALEMBIC,FLOWER,GEAR",
   "STAFF OF HERMES,ATOMo,FLEUR-DE-LIS,OUTLINED iSTAR,μ LINES CONVERGING r,μ LINES CONVERGING f",
   "WARNINGq,HIGH VOLTAGEq,uD FEMALEq,uD MALEq,INTERLOCKED FEMALEnMALEq,MALEnFEMALEq,MALEw@q",
   "MALEw@nMALEnFEMALEq,v MALEw@q,! MALEw@q,MEDIUM ij,MEDIUM xj,MEDIUM mij,MARRIAGEo,DIVORCEo",
   "UNMARRIED PARTNERSHIPo,COFFIN,FUNERAL URN,NEUTER,CERES,PALLAS,JUNO,VESTA,CHIRON,xMOON LILITH",
   "SEXTILE,SEMISEXTILE,QUINCUNX,SESQUIQUADRATE,SOCCER BALL,BASEBALL,<D KEY,iDRAUGHTS MAN",
   "iDRAUGHTS KING,xDRAUGHTS MAN,xDRAUGHTS KING,SNOWMAN WITHOUT SNOW,SUN BEHIND CLOUD,RAIN",
   "xSNOWMAN,THUNDER CLOUDnRAIN,TURNED iSHOGI PIECE,TURNED xSHOGI PIECE,iDIAMOND IN <,σING LANES",
   "DISABLED CAR,OPHIUCHUS,PICK,CAR SLIDING,HELMETwiσ,jD σING LANES,CHAINS,NO ENTRY",
   "ALTERNATE ONE-WAY f WAY TRAFFIC,xTWO-WAY f WAY TRAFFIC,iTWO-WAY f WAY TRAFFIC,xf LANE MERGE",
   "if LANE MERGE,DRIVE SLOWq,z id-t?,f CLOSED ENTRY,<D SALTIRE,FALLING DIAGONAL IN ij IN x<",
   "xTRUCK,RESTRICTED f ENTRY-1,RESTRICTED f ENTRY-2,ASTRONOMICALo FOR URANUS,z jw@nTWO DOTSζ",
   "PENTAGRAM,r-HANDED INTERLACED PENTAGRAM,f-HANDED INTERLACED PENTAGRAM,INVERTED PENTAGRAM",
   "xσ ON SHIELD,SHINTO SHRINE,CHURCH,CASTLE,HISTORIC SITE,GEAR WITHOUT HUB,GEARwHANDLES",
   "MAPo FOR $HOUSE,MOUNTAIN,UMBRELLA ON GROUND,FOUNTAIN,FLAG IN HOLE,FERRY,SAILBOAT",
   "< FOUR CORNERS,SKIER,ICE SKATE,PERSONwBALL,TENT,JAPANESE BANKo,HEADSTONE GRAVEYARDo,FUEL PUMP",
   "CUP ON x<,iFLAGw! MIDDLE xSTRIPE"]⟩

def dingbats : NameBlock :=
  ⟨0x2700, [
   "xSAFETY SCISSORS,κBLADE SCISSORS,xSCISSORS,[BLADE SCISSORS,iSCISSORS,iz CHECK.",
   "TELEPHONE LOCATIONq,TAPE DRIVE,AIRPLANE,ENVELOPE,RAISED FIST,RAISED HAND,VICTORY HAND",
   "WRITING HAND,[r PENCIL,PENCIL,κr PENCIL,iNIB,xNIB,CHECK.,z CHECK.,MULTIPLICATION X",
   "z MULTIPLICATION X,BALLOT X,z BALLOT X,OUTLINED g σ,z g σ,OPEN CENTRE σ,z OPEN CENTRE σ,l σ",
   "ξl σ,OUTLINED l σ,MALTESE σ,STAR OF DAVID,FOUR TEARDROP-SPOKED θ,FOUR BALLOON-SPOKED θ",
   "z FOUR BALLOON-SPOKED θ,FOUR CLUB-SPOKED θ,xFOUR POINTED STAR,iFOUR POINTED STAR,SPARKLES",
   "STRESS OUTLINED iSTAR,jD iSTAR,OPEN CENTRE xSTAR,xCENTRE iSTAR,OUTLINED xSTAR",
   "z OUTLINED xSTAR,PINWHEEL STAR,ξSTAR,z θ,OPEN CENTRE θ,ν SPOKED θ,ν POINTED xSTAR",
   "ν POINTED PINWHEEL STAR,SIX POINTED xSTAR,ν POINTED RECTILINEAR xSTAR",
   "z ν POINTED RECTILINEAR xSTAR,TWELVE POINTED xSTAR,SIXTEEN POINTED θ,TEARDROP-SPOKED θ",
   "OPEN CENTRE TEARDROP-SPOKED θ,z TEARDROP-SPOKED θ,SIX PETALLED xAND iFLORETTE,xFLORETTE",
   "iFLORETTE,ν PETALLED OUTLINED xFLORETTE,jD OPEN CENTRE ν POINTED STAR",
   "z TEARDROP-SPOKED PINWHEEL θ,SNOWFLAKE,TIGHT TRIFOLIATE SNOWFLAKE,z CHEVRON SNOWFLAKE,SPARKLE",
   "z SPARKLE,BALLOON-SPOKED θ,ν TEARDROP-SPOKED PROPELLER θ,z ν TEARDROP-SPOKED PROPELLER θ,σ.",
   "ξj,NEGATIVE <D σ.,[r DROP-ξ<,κr DROP-ξ<,[r ξ<,κr ξ<,xQUESTION.~,iQUESTION.~,iEXCLAMATION.~",
   "xDIAMOND MINUS iX,z EXCLAMATION.o,$ v BAR,MEDIUM v BAR,z v BAR,zλ TURNED COMMA^~,zλ COMMA^~",
   "z u TURNED COMMA^~,z u COMMA^~,z LOWλ COMMA^~,z LOW u COMMA^~,CURVED STEM PARAGRAPHq~",
   "z EXCLAMATION.~,z HEART EXCLAMATION.~,z xHEART,ROTATED z xHEART BULLET,FLORAL HEART",
   "ROTATED FLORAL HEART BULLET,MEDIUM fω~,MEDIUM rω~,MEDIUM FLATTENED fω~,MEDIUM FLATTENED rω~",
   "MEDIUM f-tANGLE]~,MEDIUM r-tANGLE]~,z f-tANGLE^~,z r-tANGLE^~,z f-tANGLE]~,z r-tANGLE]~",
   "$ f TORTOISE SHELL]~,$ r TORTOISE SHELL]~,MEDIUM f CURLY]~,MEDIUM r CURLY]~,&DIGIT ONE",
   "&DIGIT TWO,&DIGIT μ,&DIGIT FOUR,&DIGIT FIVE,&DIGIT SIX,&DIGIT SEVEN,&DIGIT ν,&DIGIT NINE",
   "&NUMBER TEN,DINGBAT jD =ONE,DINGBAT jD =TWO,DINGBAT jD =μ,DINGBAT jD =FOUR,DINGBAT jD =FIVE",
   "DINGBAT jD =SIX,DINGBAT jD =SEVEN,DINGBAT jD =ν,DINGBAT jD =NINE",
   "DINGBAT jD SANS-SERIF NUMBER TEN,&=ONE,&=TWO,&=μ,&=FOUR,&=FIVE,&=SIX,&=SEVEN,&=ν,&=NINE",
   "&SANS-SERIF NUMBER TEN,z WIDE-HEADED %a,z PLUSq,z MINUSq,z DIVISIONq,z SOUTH EASTa,z %a",
   "z NORTH EASTa,DRAFTING POINT %a,z ROUND-TIPPED %a,?-HEADED %a,z ?-HEADED %a",
   "DASHED ?-HEADED %a,z DASHED ?-HEADED %a,x%a,μ-D TOP-$ED %aHEAD,μ-D BOTTOM-$ED %aHEAD,x%aHEAD",
   "z xCURVED τn%a,z xCURVED οn%a,SQUAT x%a,z CONCAVE-POINTED x%a,r-SHADED i%a,f-SHADED i%a",
   "BACK-TILTED ξ%a,FRONT-TILTED ξ%a,z [r-ξ%a,z κr-ξ%a,NOTCHED [r-ξ%a,CURLY LOOP,NOTCHED κr-ξ%a",
   "jD z i%a,WHITE-FEATHERED %a,BLACK-FEATHERED SOUTH EASTa,BLACK-FEATHERED %a",
   "BLACK-FEATHERED NORTH EASTa,z BLACK-FEATHERED SOUTH EASTa,z BLACK-FEATHERED %a",
   "z BLACK-FEATHERED NORTH EASTa,TEARDROP-BARBED %a,z TEARDROP-SHANKED %a,WEDGE-TAILED %a",
   "z WEDGE-TAILED %a,OPEN-OUTLINED %a,u CURLY LOOP"]⟩

def kana : NameBlock :=
  ⟨0x3000, [
   "εSPACE,εCOMMA,εFULL STOP,DITTO.,JAPANESE INDUSTRIAL STANDARDo,εITERATION.,εCLOSING.",
   "εNUMBER ZERO,f ANGLE],r ANGLE],f u ANGLE],r u ANGLE],f CORNER],r CORNER],f iCORNER]",
   "r iCORNER],f xLENTICULAR],r xLENTICULAR],POSTAL.,GETA.,f TORTOISE SHELL],r TORTOISE SHELL]",
   "f iLENTICULAR],r iLENTICULAR],f iTORTOISE SHELL],r iTORTOISE SHELL],f i<],r i<],WAVE DASH",
   "0u PRIME^,u PRIME^,LOW u PRIME^,POSTAL.#,8ONE,8TWO,8μ,8FOUR,8FIVE,8SIX,8SEVEN,8ν,8NINE",
   "εLEVEL TONE.,εRISING TONE.,εDEPARTING TONE.,εENTERING TONE.,HANGULλ DOT TONE.",
   "HANGUL u DOT TONE.,WAVY DASH,v KANA REPEAT.,v KANA REPEATwVOICED SOUND.,v KANA REPEAT. κHALF",
   "v KANA REPEATwVOICED SOUND. κHALF,v KANA REPEAT. [HALF,jD POSTAL.",
   "εTELEGRAPH LINE FEED SEPARATORo,8TEN,8TWENTY,8THIRTY,v εITERATION.,MASU.,PART ALTERNATION.",
   "εVARIATION INDICATOR,εHALF FILL SPACE,,hmA,hA,hmI,hI,hmU,hU,hmE,hE,hmO,hO,hKA,hGA,hKI,hGI,hKU",
   "hGU,hKE,hGE,hKO,hGO,hSA,hZA,hSI,hZI,hSU,hZU,hSE,hZE,hSO,hZO,hTA,hDA,hTI,hDI,hmTU,hTU,hDU,hTE",
   "hDE,hTO,hDO,hNA,hNI,hNU,hNE,hNO,hHA,hBA,hPA,hHI,hBI,hPI,hHU,hBU,hPU,hHE,hBE,hPE,hHO,hBO,hPO",
   "hMA,hMI,hMU,hME,hMO,hmYA,hYA,hmYU,hYU,hmYO,hYO,hRA,hRI,hRU,hRE,hRO,hmWA,hWA,hWI,hWE,hWO,hN",
   "hVU,hmKA,hmKE,,,;KATAKANA-HIRAGANA VOICED SOUND.,;KATAKANA-HIRAGANA SEMI-VOICED SOUND.",
   "KATAKANA-HIRAGANA VOICED SOUND.,KATAKANA-HIRAGANA SEMI-VOICED SOUND.,HIRAGANA ITERATION.",
   "HIRAGANA VOICED ITERATION.,HIRAGANA DIGRAPH YORI,KATAKANA-HIRAGANA u HYPHEN,kmA,kA,kmI,kI,kmU",
   "kU,kmE,kE,kmO,kO,kKA,kGA,kKI,kGI,kKU,kGU,kKE,kGE,kKO,kGO,kSA,kZA,kSI,kZI,kSU,kZU,kSE,kZE,kSO",
   "kZO,kTA,kDA,kTI,kDI,kmTU,kTU,kDU,kTE,kDE,kTO,kDO,kNA,kNI,kNU,kNE,kNO,kHA,kBA,kPA,kHI,kBI,kPI",
   "kHU,kBU,kPU,kHE,kBE,kPE,kHO,kBO,kPO,kMA,kMI,kMU,kME,kMO,kmYA,kYA,kmYU,kYU,kmYO,kYO,kRA,kRI",
   "kRU,kRE,kRO,kmWA,kWA,kWI,kWE,kWO,kN,kVU,kmKA,kmKE,kVA,kVI,kVE,kVO,KATAKANA MIDDLE DOT",
   "KATAKANA-HIRAGANA PROLONGED SOUND.,KATAKANA ITERATION.,KATAKANA VOICED ITERATION.",
   "KATAKANA DIGRAPH KOTO"]⟩

def pictures : NameBlock :=
  ⟨0x1f300, [
   "CYCLONE,FOGGY,CLOSED UMBRELLA,NIGHTwSTARS,SUNRISE OVER MOUNTAINS,SUNRISE,CITYSCAPE AT DUSK",
   "SUNSET OVER BUILDINGS,RAINBOW,BRIDGE AT NIGHT,WATER WAVE,VOLCANO,MILKY WAY",
   "EARTH GLOBE EUROPE-AFRICA,EARTH GLOBE AMERICAS,EARTH GLOBE ASIA-AUSTRALIA,GLOBEwMERIDIANS",
   "NEW MOONo,WAXING CRESCENT MOONo,FIRST QUARTER MOONo,WAXING GIBBOUS MOONo,FULL MOONo",
   "WANING GIBBOUS MOONo,LAST QUARTER MOONo,WANING CRESCENT MOONo,CRESCENT MOON,NEW MOONwFACE",
   "FIRST QUARTER MOONwFACE,LAST QUARTER MOONwFACE,FULL MOONwFACE,SUNwFACE,GLOWING STAR",
   "SHOOTING STAR,THERMOMETER,xDROPLET,iSUN,iSUNwmCLOUD,iSUN BEHIND CLOUD,iSUN BEHIND CLOUDwRAIN",
   "CLOUDwRAIN,CLOUDwSNOW,CLOUDw$NING,CLOUDwTORNADO,FOG,WIND BLOWING#,HOT DOG,TACO,BURRITO",
   "CHESTNUT,SEEDLING,EVERGREEN TREE,DECIDUOUS TREE,PALM TREE,CACTUS,HOT PEPPER,TULIP",
   "CHERRY BLOSSOM,ROSE,HIBISCUS,SUNFLOWER,BLOSSOM,EAR OF MAIZE,EAR OF RICE,HERB,FOUR LEAF CLOVER",
   "MAPLE LEAF,FALLEN LEAF,LEAF FLUTTERING IN WIND,MUSHROOM,TOMATO,AUBERGINE,GRAPES,MELON",
   "WATERMELON,TANGERINE,LEMON,BANANA,PINEAPPLE,RED APPLE,GREEN APPLE,PEAR,PEACH,CHERRIES",
   "STRAWBERRY,HAMBURGER,SLICE OF PIZZA,MEAT ON BONE,POULTRY LEG,RICE CRACKER,RICE BALL",
   "COOKED RICE,CURRYnRICE,STEAMING BOWL,SPAGHETTI,BREAD,FRENCH FRIES,ROASTED SWEET POTATO,DANGO",
   "ODEN,SUSHI,FRIED SHRIMP,FISH CAKEwSWIRL DESIGN,SOFT ICE CREAM,SHAVED ICE,ICE CREAM,DOUGHNUT",
   "COOKIE,CHOCOLATE BAR,CANDY,LOLLIPOP,CUSTARD,HONEY POT,SHORTCAKE,BENTO BOX,POT OF FOOD,COOKING",
   "FORKnKNIFE,TEACUP WITHOUT HANDLE,SAKE BOTTLEnCUP,WINE GLASS,COCKTAIL GLASS,TROPICAL DRINK",
   "BEER MUG,CLINKING BEER MUGS,BABY BOTTLE,FORKnKNIFEwPLATE,BOTTLEwPOPPING CORK,POPCORN,RIBBON",
   "WRAPPED PRESENT,BIRTHDAY CAKE,JACK-O-LANTERN,CHRISTMAS TREE,FATHER CHRISTMAS,FIREWORKS",
   "FIREWORK SPARKLER,BALLOON,PARTY POPPER,CONFETTI BALL,TANABATA TREE,σED FLAGS,PINE DECORATION",
   "JAPANESE DOLLS,CARP STREAMER,WIND CHIME,MOON VIEWING CEREMONY,SCHOOL SATCHEL,GRADUATION CAP",
   "HEARTwTIP ON THE f,BOUQUET OF FLOWERS,MILITARY MEDAL,REMINDER RIBBON,MUSICAL KEYBOARDwJACKS",
   "STUDIO MICROPHONE,LEVEL SLIDER,CONTROL KNOBS,BEAMED ASCENDING MUSICAL NOTES",
   "BEAMED DESCENDING MUSICAL NOTES,FILM FRAMES,ADMISSION TICKETS,CAROUSEL HORSE,FERRIS WHEEL",
   "ROLLER COASTER,FISHING POLEnFISH,MICROPHONE,MOVIE CAMERA,CINEMA,HEADPHONE,ARTIST PALETTE",
   "TOP HAT,CIRCUS TENT,TICKET,CLAPPER BOARD,PERFORMING ARTS,VIDEO GAME,DIRECT HIT,SLOT MACHINE",
   "BILLIARDS,GAME DIE,BOWLING,F[PLAYING CARDS,MUSICAL NOTE,MULTIPLE MUSICAL NOTES,SAXOPHONE",
   "GUITAR,MUSICAL KEYBOARD,TRUMPET,VIOLIN,MUSICAL SCORE,RUNNING SHIRTwSASH,TENNIS RACQUETnBALL",
   "SKInSKI BOOT,BASKETBALLnHOOP,CHEQUERED FLAG,SNOWBOARDER,RUNNER,SURFER,SPORTS MEDAL,TROPHY",
   "HORSE RACING,AMERICAN FOOTBALL,RUGBY FOOTBALL,SWIMMER,Wν LIFTER,GOLFER,RACING MOTORCYCLE",
   "RACING CAR,CRICKET BATnBALL,VOLLEYBALL,FIELD HOCKEY STICKnBALL,ICE HOCKEY STICKnPUCK",
   "TABLE TENNIS PADDLEnBALL,SNOW CAPPED MOUNTAIN,CAMPING,BEACHwUMBRELLA,BUILDING CONSTRUCTION",
   "HOUSE BUILDINGS,CITYSCAPE,DERELICT HOUSE BUILDING,CLASSICAL BUILDING,DESERT,DESERT ISLAND",
   "NATIONAL PARK,STADIUM,HOUSE BUILDING,HOUSEwGARDEN,OFFICE BUILDING,JAPANESE POST OFFICE",
   "EUROPEAN POST OFFICE,HOSPITAL,BANK,AUTOMATED TELLER MACHINE,HOTEL,LOVE HOTEL",
   "CONVENIENCE STORE,SCHOOL,DEPARTMENT STORE,FACTORY,IZAKAYA LANTERN,JAPANESE CASTLE",
   "EUROPEAN CASTLE,iPENNANT,xPENNANT,WAVING iFLAG,WAVING xFLAG,ROSETTE,xROSETTE,LABEL",
   "BADMINTON RACQUETnSHUTTLECOCK,BOW ANDa,AMPHORA,ι1-2,ι3,ι4,ι5,ι6,RAT,MOUSE,OX,WATER BUFFALO",
   "COW,TIGER,LEOPARD,RABBIT,CAT,DRAGON,CROCODILE,WHALE,SNAIL,SNAKE,HORSE,RAM,GOAT,SHEEP,MONKEY",
   "ROOSTER,CHICKEN,DOG,PIG,BOAR,ELEPHANT,OCTOPUS,SPIRAL SHELL,BUG,ANT,HONEYBEE,LADY BEETLE,FISH",
   "TROPICAL FISH,BLOWFISH,TURTLE,HATCHING CHICK,BABY CHICK,FRONT-FACING BABY CHICK,BIRD,PENGUIN",
   "KOALA,POODLE,DROMEDARY CAMEL,BACTRIAN CAMEL,DOLPHIN,MOUSE#,COW#,TIGER#,RABBIT#,CAT#,DRAGON#",
   "SPOUTING WHALE,HORSE#,MONKEY#,DOG#,PIG#,FROG#,HAMSTER#,WOLF#,BEAR#,PANDA#,PIG NOSE,PAW PRINTS",
   "CHIPMUNK,EYES,EYE,EAR,NOSE,MOUTH,TONGUE,i|χ,idχ,ifχ,irχ,FISTED HANDq,WAVING HANDq,OK HANDq",
   "THUMBS |q,THUMBS dq,CLAPPING HANDSq,OPEN HANDSq,CROWN,WOMANS HAT,EYEGLASSES,NECKTIE,T-SHIRT",
   "JEANS,DRESS,KIMONO,BIKINI,WOMANS CLOTHES,PURSE,HANDBAG,POUCH,MANS SHOE,ATHLETIC SHOE",
   "HIGH-HEELED SHOE,WOMANS SANDAL,WOMANS BOOTS,FOOTPRINTS,BUST IN SILHOUETTE,BUSTS IN SILHOUETTE",
   "BOY,GIRL,MAN,WOMAN,FAMILY,MANnWOMAN HOLDING HANDS,TWO MEN HOLDING HANDS",
   "TWO WOMEN HOLDING HANDS,POLICE OFFICER,WOMANwBUNNY EARS,BRIDEwVEIL,PERSONwBLOND HAIR",
   "MANwGUA PI MAO,MANwTURBAN,OLDER MAN,OLDER WOMAN,BABY,CONSTRUCTION WORKER,PRINCESS",
   "JAPANESE OGRE,JAPANESE GOBLIN,GHOST,BABY ANGEL,EXTRATERRESTRIAL ALIEN,ALIEN MONSTER,IMP,SKULL",
   "INFORMATION DESK PERSON,GUARDSMAN,DANCER,LIPSTICK,NAIL POLISH,FACE MASSAGE,HAIRCUT",
   "BARBER POLE,SYRINGE,PILL,KISS.,LOVE υ,RING,GEM STONE,KISS,BOUQUET,COUPLEwHEART,WEDDING",
   "BEATING HEART,BROKEN HEART,TWO HEARTS,SPARKLING HEART,GROWING HEART,HEART WITHa,BLUE HEART",
   "GREEN HEART,YELLOW HEART,PURPLE HEART,HEARTwRIBBON,REVOLVING HEARTS,HEART DECORATION",
   "DIAMOND SHAPEwA DOT INSIDE,ELECTRIC $ BULB,ANGERo,BOMB,SLEEPINGo,COLLISIONo,SPLASHING SWEATo",
   "DROPLET,DASHo,PILE OF POO,FLEXED BICEPS,DIZZYo,SPEECH BALLOON,THOUGHT BALLOON,iFLOWER",
   "HUNDRED POINTSo,MONEY BAG,CURRENCY EXCHANGE,z DOLLARq,CREDIT CARD,BANKNOTEwYENq",
   "BANKNOTEwDOLLARq,BANKNOTEwEUROq,BANKNOTEwPOUNDq,MONEYwWINGS,CHARTwο TRENDnYENq,SEAT",
   "PERSONAL COMPUTER,BRIEFCASE,MINIDISC,FLOPPY DISK,OPTICAL DISC,DVD,FILE FOLDER",
   "OPEN FILE FOLDER,PAGEwCURL,PAGE FACING |,CALENDAR,TEAR-OFF CALENDAR,CARD INDEX,CHARTwο TREND",
   "CHARTwτ TREND,BAR CHART,CLIPBOARD,PUSHPIN,ROUND PUSHPIN,PAPERCLIP,STRAIGHT RULER",
   "TRIANGULAR RULER,BOOKMARK TABS,LEDGER,NOTEBOOK,NOTEBOOKwDECORATIVE COVER,CLOSED BOOK",
   "OPEN BOOK,GREEN BOOK,BLUE BOOK,ORANGE BOOK,BOOKS,NAME BADGE,SCROLL,MEMO,TELEPHONE RECEIVER",
   "PAGER,FAX MACHINE,SATELLITE ANTENNA,PUBLIC ADDRESS LOUDSPEAKER,CHEERING MEGAPHONE,OUTBOX TRAY",
   "INBOX TRAY,PACKAGE,E-MAILo,INCOMING ENVELOPE,ENVELOPEwτaζ,CLOSED MAILBOXwLOWERED FLAG",
   "CLOSED MAILBOXwRAISED FLAG,OPEN MAILBOXwRAISED FLAG,OPEN MAILBOXwLOWERED FLAG,POSTBOX",
   "POSTAL HORN,NEWSPAPER,MOBILE PHONE,MOBILE PHONEw%a AT f,VIBRATION MODE,MOBILE PHONE OFF",
   "NO MOBILE PHONES,ANTENNAwBARS,CAMERA,CAMERAwFLASH,VIDEO CAMERA,TELEVISION,RADIO,VIDEOCASSETTE",
   "FILM PROJECTOR,PORTABLE STEREO,PRAYER BEADS,TWISTED %aS,_WISE %n) OPEN jaS",
   "_WISE %n) OPEN jaSwjD ONE OVERLAY,_WISE τnο OPEN jaS,ANTI_WISE τnο OPEN jaS,LOW BrNESSo",
   "HIGH BrNESSo,SPEAKERwCANCELLATION @,SPEAKER,SPEAKERwONE SOUND WAVE,SPEAKERwμ SOUND WAVES",
   "BATTERY,ELECTRIC PLUG,f-tMAGNIFYING GLASS,r-tMAGNIFYING GLASS,LOCKwINK PEN,CLOSED LOCKwKEY",
   "KEY,LOCK,OPEN LOCK,BELL,BELLwCANCELLATION @,BOOKMARK,LINKo,RADIO BUTTON,BACKw)aζ,ENDw)aζ",
   "ONwEXCLAMATION.wf raζ,SOONw%aζ,TOPwοaζ,NO ONE UNDER νEENo,KEYCAP TEN,INPUTo FOR lp υS",
   "INPUTo FOR l mυS,INPUTo FOR NUMBERS,INPUTo FORoS,INPUTo FOR l υS,FIRE,ELECTRIC TORCH,WRENCH",
   "HAMMER,NUTnBOLT,HOCHO,PISTOL,MICROSCOPE,TELESCOPE,CRYSTAL BALL,SIX POINTED STARwMIDDLE DOT",
   "JAPANESEo FOR BEGINNER,TRIDENT EMBLEM,x< BUTTON,i< BUTTON,LARGE RED j,LARGE BLUE j",
   "LARGE ORANGE DIAMOND,LARGE BLUE DIAMOND,mORANGE DIAMOND,mBLUE DIAMOND,|-tRED ?,d-tRED ?",
   "|-tmRED ?,d-tmRED ?,[r ξj,κr ξj,jD σ POMMEE,σ POMMEEwHALF-j BELOW,σ POMMEE",
   "NOTCHED f SEMIjwμ DOTS,NOTCHED r SEMIjwμ DOTS,SYMBOL FOR.S CHAPTER,il σ,z l σ,CELTIC σ,OMo",
   "DOVE OF PEACE,KAABA,MOSQUE,SYNAGOGUE,MENORAHwNINE BRANCHES,BOWL OF HYGIEIA,_# ONE O_",
   "_# TWO O_,_# μ O_,_# FOUR O_,_# FIVE O_,_# SIX O_,_# SEVEN O_,_# ν O_,_# NINE O_,_# TEN O_",
   "_# ELEVEN O_,_# TWELVE O_,_# ONE-THIRTY,_# TWO-THIRTY,_# μ-THIRTY,_# FOUR-THIRTY",
   "_# FIVE-THIRTY,_# SIX-THIRTY,_# SEVEN-THIRTY,_# ν-THIRTY,_# NINE-THIRTY,_# TEN-THIRTY",
   "_# ELEVEN-THIRTY,_# TWELVE-THIRTY,r SPEAKER,r SPEAKERwONE SOUND WAVE,r SPEAKERwμ SOUND WAVES",
   "BULLHORN,BULLHORNwSOUND WAVES,RINGING BELL,BOOK,CANDLE,MANTELPIECE _,xSKULLnσBONES,NO PIRACY",
   "HOLE,MAN IN BUSINESS SUIT LEVITATING,SLEUTH OR SPY,DARK SUNGLASSES,SPIDER,SPIDER WEB,JOYSTICK",
   "MAN DANCING,f HAND TELEPHONE RECEIVER,TELEPHONE RECEIVERwPAGE,r HAND TELEPHONE RECEIVER",
   "iTOUCHTONE TELEPHONE,xTOUCHTONE TELEPHONE,TELEPHONE ON TOP OF MODEM,CLAMSHELL MOBILE PHONE",
   "BACK OF ENVELOPE,STAMPED ENVELOPE,ENVELOPEw$NING,FLYING ENVELOPE,PEN OVER STAMPED ENVELOPE",
   "LINKED PAPERCLIPS,xPUSHPIN,[f PENCIL,[f BALLPOINT PEN,[f FOUNTAIN PEN,[f PAINTBRUSH,[f CRAYON",
   "f WRITING HAND,TURNED OK HANDq,RAISED HANDwFINGERS SPLAYED,0RAISED HANDwFINGERS SPLAYED",
   "0THUMBS |q,0THUMBS dq,0VICTORY HAND,0HANDwMIDDLE FINGER EXTENDED",
   "RAISED HANDwPART BETWEEN MIDDLEnRING FINGERS,id tf HAND INDEX,SIDEWAYS if tINDEX",
   "SIDEWAYS ir tINDEX,SIDEWAYS xf tINDEX,SIDEWAYS xr tINDEX,xfχ,xrχ,SIDEWAYS i| tINDEX",
   "SIDEWAYS id tINDEX,SIDEWAYS x| tINDEX,SIDEWAYS xd tINDEX,x|χ,xdχ,xHEART,DESKTOP COMPUTER",
   "KEYBOARDnMOUSE,μ NETWORKED COMPUTERS,PRINTER,POCKET CALCULATOR,xHARD SHELL FLOPPY DISK",
   "iHARD SHELL FLOPPY DISK,SOFT SHELL FLOPPY DISK,TAPE CARTRIDGE,WIRED KEYBOARD,ONE BUTTON MOUSE",
   "TWO BUTTON MOUSE,μ BUTTON MOUSE,TRACKBALL,OLD PERSONAL COMPUTER,HARD DISK,SCREEN,PRINTER ICON",
   "FAX ICON,OPTICAL DISC ICON,DOCUMENTwTEXT,DOCUMENTwTEXTnPICTURE,DOCUMENTwPICTURE,FRAMEwPICTURE",
   "FRAMEwTILES,FRAMEwAN X,xFOLDER,FOLDER,OPEN FOLDER,CARD INDEX DIVIDERS,CARD FILE BOX",
   "FILE CABINET,EMPTY NOTE,EMPTY NOTE PAGE,EMPTY NOTE PAD,NOTE,NOTE PAGE,NOTE PAD,EMPTY DOCUMENT",
   "EMPTY PAGE,EMPTY PAGES,DOCUMENT,PAGE,PAGES,WASTEBASKET,SPIRAL NOTE PAD,SPIRAL CALENDAR PAD",
   "DESKTOP WINDOW,MINIMIZE,MAXIMIZE,OVERLAP,_WISE rnf SEMIjaS,CANCELLATION X,INCREASE FONT SIZEo",
   "DECREASE FONT SIZEo,COMPRESSION,OLD KEY,ROLLED-| NEWSPAPER,PAGEwjD TEXT,STOCK CHART",
   "DAGGER KNIFE,LIPS,SPEAKING HEAD IN SILHOUETTE,μ RAYSζ,μ RAYS BELOW,μ RAYS f,μ RAYS r",
   "f SPEECH BUBBLE,r SPEECH BUBBLE,TWO SPEECH BUBBLES,μ SPEECH BUBBLES,f THOUGHT BUBBLE",
   "r THOUGHT BUBBLE,f ANGER BUBBLE,r ANGER BUBBLE,MOOD BUBBLE,$NING MOOD BUBBLE,$NING MOOD",
   "BALLOT BOXwBALLOT,BALLOT : X,BALLOT BOXw: X,BALLOT BOLD : X,BALLOT BOXwBOLD : X,$ CHECK.",
   "BALLOT BOXwBOLD CHECK,WORLD MAP,MOUNT FUJI,TOKYO TOWER,STATUE OF LIBERTY,SILHOUETTE OF JAPAN",
   "MOYAI"]⟩

def faces : NameBlock :=
  ⟨0x1f600, [
   "GRINNING#,GRINNING#wψ EYES,FACEwTEARS OF JOY,ψ#wOPEN MOUTH,ψ#wOPEN MOUTHnψ EYES",
   "ψ#wOPEN MOUTHnCOLD SWEAT,ψ#wOPEN MOUTHnTIGHTLY-CLOSED EYES,ψ#wHALO,ψ#wHORNS,WINKING#",
   "ψ#wψ EYES,FACE SAVOURING DELICIOUS FOOD,RELIEVED#,ψ#wHEART-SHAPED EYES,ψ#wSUNGLASSES",
   "SMIRKING#,NEUTRAL#,EXPRESSIONLESS#,UNAMUSED#,FACEwCOLD SWEAT,PENSIVE#,CONFUSED#,CONFOUNDED#",
   "KISSING#,FACE THROWING A KISS,KISSING#wψ EYES,KISSING#wCLOSED EYES,FACEwSTUCK-OUT TONGUE",
   "FACEwSTUCK-OUT TONGUEnWINKING EYE,FACEwSTUCK-OUT TONGUEnTIGHTLY-CLOSED EYES,DISAPPOINTED#",
   "WORRIED#,ANGRY#,POUTING#,CRYING#,PERSEVERING#,FACEwLOOK OF TRIUMPH,DISAPPOINTED BUT RELIEVED#",
   "FROWNING#wOPEN MOUTH,ANGUISHED#,FEARFUL#,WEARY#,SLEEPY#,TIRED#,GRIMACING#,LOUDLY CRYING#",
   "FACEwOPEN MOUTH,HUSHED#,FACEwOPEN MOUTHnCOLD SWEAT,FACE SCREAMING IN FEAR,ASTONISHED#",
   "FLUSHED#,SLEEPING#,DIZZY#,FACE WITHOUT MOUTH,FACEwMEDICAL MASK,GRINNING CAT#wψ EYES",
   "CAT#wTEARS OF JOY,ψ CAT#wOPEN MOUTH,ψ CAT#wHEART-SHAPED EYES,CAT#wWRY SMILE",
   "KISSING CAT#wCLOSED EYES,POUTING CAT#,CRYING CAT#,WEARY CAT#,S$LY FROWNING#,S$LY ψ#,UPSIDE-d#",
   "FACEwROLLING EYES,FACEwNO GOOD GESTURE,FACEwOK GESTURE,PERSON BOWING DEEPLY",
   "SEE-NO-EVIL MONKEY,HEAR-NO-EVIL MONKEY,SPEAK-NO-EVIL MONKEY,HAPPY PERSON RAISING ONE HAND",
   "PERSON RAISING BOTH HANDS IN CELEBRATION,PERSON FROWNING,PERSONwPOUTING#,PERSONwFOLDED HANDS"]⟩

def transport : NameBlock :=
  ⟨0x1f680, [
   "ROCKET,HELICOPTER,STEAM LOCOMOTIVE,RAILWAY CAR,HIGH-SPEED TRAIN,HIGH-SPEED TRAINwBULLET NOSE",
   "TRAIN,METRO,$ RAIL,STATION,TRAM,TRAM CAR,BUS,ONCOMING BUS,TROLLEYBUS,BUS STOP,MINIBUS",
   "AMBULANCE,FIRE ENGINE,POLICE CAR,ONCOMING POLICE CAR,TAXI,ONCOMING TAXI,AUTOMOBILE",
   "ONCOMING AUTOMOBILE,RECREATIONAL VEHICLE,DELIVERY TRUCK,ARTICULATED LORRY,TRACTOR,MONORAIL",
   "MOUNTAIN RAILWAY,SUSPENSION RAILWAY,MOUNTAIN CABLEWAY,AERIAL TRAMWAY,SHIP,ROWBOAT,SPEEDBOAT",
   "! TRAFFIC $,v TRAFFIC $,CONSTRUCTIONq,POLICE CARS REVOLVING $,TRIANGULAR FLAG ON POST,DOOR",
   "NO ENTRYq,SMOKINGo,NO SMOKINGo,PUT LITTER IN ITS PLACEo,DO NOT LITTERo,POTABLE WATERo",
   "NON-POTABLE WATERo,BICYCLE,NO BICYCLES,BICYCLIST,MOUNTAIN BICYCLIST,PEDESTRIAN,NO PEDESTRIANS",
   "CHILDREN σING,MENSo,WOMENSo,RESTROOM,BABYo,TOILET,WATER CLOSET,SHOWER,BATH,BATHTUB",
   "PASSPORT CONTROL,CUSTOMS,BAGGAGE CLAIM,f LUGGAGE,?wROUNDED CORNERS,PROHIBITEDq",
   "jD INFORMATION SOURCE,BOYSo,GIRLSo,COUCHnLAMP,SLEEPING ACCOMMODATION,SHOPPING BAGS",
   "BELLHOP BELL,BED,PLACE OF WORSHIP,OCTAGONALq,SHOPPING TROLLEY,STUPA,PAGODA,HINDU TEMPLE,HUT",
   "ELEVATOR,,,,,,PLAYGROUND SLIDE,WHEEL,RING BUOY,HAMMERnWRENCH,SHIELD,OIL DRUM,MOTORWAY",
   "RAILWAY TRACK,MOTOR BOAT,|-tMILITARY AIRPLANE,|-tAIRPLANE,|-tmAIRPLANE,mAIRPLANE",
   "NORTHEAST-tAIRPLANE,AIRPLANE DEPARTURE,AIRPLANE ARRIVING,,,,SATELLITE,ONCOMING FIRE ENGINE",
   "DIESEL LOCOMOTIVE,PASSENGER SHIP,SCOOTER,MOTOR SCOOTER,CANOE,SLED,FLYING SAUCER,SKATEBOARD",
   "AUTO RICKSHAW,PICKUP TRUCK,ROLLER SKATE"]⟩

def all : List NameBlock :=
  [latin, greek, cyrillic, punctuation, letterlike, arrows, operators, shapes,
   symbols, dingbats, kana, pictures, faces, transport]

end NameBlock

/-- Other names of characters, chiefly of those that are not printed. -/
def otherNames : List (Nat × String) :=
  [(0x0, "NULL,NUL"), (0x1, "START OF HEADING,SOH"), (0x2, "START OF TEXT,STX"),
   (0x3, "END OF TEXT,ETX"), (0x4, "END OF TRANSMISSION,EOT"), (0x5, "ENQUIRY,ENQ"),
   (0x6, "ACKNOWLEDGE,ACK"), (0x7, "ALERT,BEL"), (0x8, "BACKSPACE,BS"),
   (0x9, "CHARACTER TABULATION,HORIZONTAL TABULATION,HT,TAB"),
   (0xa, "LINE FEED,NEW LINE,END OF LINE,LF,NL,EOL"),
   (0xb, "LINE TABULATION,VERTICAL TABULATION,VT"), (0xc, "FORM FEED,FF"),
   (0xd, "CARRIAGE RETURN,CR"), (0xe, "SHIFT OUT,LOCKING-SHIFT ONE,SO"),
   (0xf, "SHIFT IN,LOCKING-SHIFT ZERO,SI"), (0x10, "DATA LINK ESCAPE,DLE"),
   (0x11, "DEVICE CONTROL ONE,DC1"), (0x12, "DEVICE CONTROL TWO,DC2"),
   (0x13, "DEVICE CONTROL THREE,DC3"), (0x14, "DEVICE CONTROL FOUR,DC4"),
   (0x15, "NEGATIVE ACKNOWLEDGE,NAK"), (0x16, "SYNCHRONOUS IDLE,SYN"),
   (0x17, "END OF TRANSMISSION BLOCK,ETB"), (0x18, "CANCEL,CAN"),
   (0x19, "END OF MEDIUM,EOM"), (0x1a, "SUBSTITUTE,SUB"), (0x1b, "ESCAPE,ESC"),
   (0x1c, "INFORMATION SEPARATOR FOUR,FILE SEPARATOR,FS"),
   (0x1d, "INFORMATION SEPARATOR THREE,GROUP SEPARATOR,GS"),
   (0x1e, "INFORMATION SEPARATOR TWO,RECORD SEPARATOR,RS"),
   (0x1f, "INFORMATION SEPARATOR ONE,UNIT SEPARATOR,US"), (0x20, "SP"), (0x7f, "DELETE,DEL"),
   (0x80, "PADDING CHARACTER,PAD"), (0x81, "HIGH OCTET PRESET,HOP"),
   (0x82, "BREAK PERMITTED HERE,BPH"), (0x83, "NO BREAK HERE,NBH"), (0x84, "INDEX,IND"),
   (0x85, "NEXT LINE,NEL"), (0x86, "START OF SELECTED AREA,SSA"),
   (0x87, "END OF SELECTED AREA,ESA"),
   (0x88, "CHARACTER TABULATION SET,HORIZONTAL TABULATION SET,HTS"),
   (0x89, "CHARACTER TABULATION WITH JUSTIFICATION,HORIZONTAL TABULATION WITH JUSTIFICATION,HTJ"),
   (0x8a, "LINE TABULATION SET,VERTICAL TABULATION SET,VTS"),
   (0x8b, "PARTIAL LINE FORWARD,PARTIAL LINE DOWN,PLD"),
   (0x8c, "PARTIAL LINE BACKWARD,PARTIAL LINE UP,PLU"),
   (0x8d, "REVERSE LINE FEED,REVERSE INDEX,RI"),
   (0x8e, "SINGLE SHIFT TWO,SINGLE-SHIFT-2,SS2"),
   (0x8f, "SINGLE SHIFT THREE,SINGLE-SHIFT-3,SS3"), (0x90, "DEVICE CONTROL STRING,DCS"),
   (0x91, "PRIVATE USE ONE,PRIVATE USE-1,PU1"), (0x92, "PRIVATE USE TWO,PRIVATE USE-2,PU2"),
   (0x93, "SET TRANSMIT STATE,STS"), (0x94, "CANCEL CHARACTER,CCH"),
   (0x95, "MESSAGE WAITING,MW"), (0x96, "START OF GUARDED AREA,START OF PROTECTED AREA,SPA"),
   (0x97, "END OF GUARDED AREA,END OF PROTECTED AREA,EPA"), (0x98, "START OF STRING,SOS"),
   (0x99, "SINGLE GRAPHIC CHARACTER INTRODUCER,SGC"),
   (0x9a, "SINGLE CHARACTER INTRODUCER,SCI"), (0x9b, "CONTROL SEQUENCE INTRODUCER,CSI"),
   (0x9c, "STRING TERMINATOR,ST"), (0x9d, "OPERATING SYSTEM COMMAND,OSC"),
   (0x9e, "PRIVACY MESSAGE,PM"), (0x9f, "APPLICATION PROGRAM COMMAND,APC"), (0xa0, "NBSP"),
   (0xad, "SHY"), (0x200b, "ZWSP"), (0x200c, "ZWNJ"), (0x200d, "ZWJ"), (0x200e, "LRM"),
   (0x200f, "RLM"), (0x202a, "LRE"), (0x202b, "RLE"), (0x202c, "PDF"), (0x202d, "LRO"),
   (0x202e, "RLO"), (0x202f, "NNBSP"), (0x2060, "WJ"), (0xfeff, "BYTE ORDER MARK,BOM,ZWNBSP")]

end ScriptLang.Text
