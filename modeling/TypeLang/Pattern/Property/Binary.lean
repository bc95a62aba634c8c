import TypeLang.Pattern.Property.Category

/-!
# Binary properties

Properties that a character has or has not. Where the standard derives a property from categories
and other properties, so do the definitions here.
-/

namespace TypeLang.Property

def otherLowercase : String := "
  gOBPBtHJHCbEFdSBcABfcZBepZcLNBbIbLbaNBNBQNiDQbgQbAcwOCbugKCiCBeZDDCbhIEJBbiwSBCDBbQBJddzHcK"

def otherUppercase : String := "mqQQbgGbAgsiYbAGbAGbA"

def otherAlphabetic : String := "
  bhJNwEOBBBCBCBBcULbWNBHQBdXHEECCEBbJBbEQdYLdXCDJBDBEeCBcIMDHGUcCCCPBCFDKCbDDcGHCCCCKBKCbDDcGFECCCE
  BbECDBLDcGIBDBCVCWDEDcGHCCCCJCKCbEBcHFDDBDKBbOFcFHBDBDICLCbDDcGHBDBDICLCPBMEcGHBDBDKBKCbDDcXGBBBIS
  CcJBCHSBdVBCGBCQBgHTJLBbKeGMBBCEXEEDBDCHDENMBBKEclOCbECbECbECcOThGCbIBeOMEJiOFcFKCUcWCLDbXFbWPcIDb
  EJCCcFLbYTpWbIcoNcAdkGbGbtqAIbICnQBIBXFdKCbYQBBcFBbMFbCMbTEbWMbLBcPOMBICbTDbYBBDCCFBbSFFBjDIbdzVBd
  eDFcmGDBCFEbeIEcNBmJCdBBjZDcBObTCLDbTJJBcJDbKMSCcFDbWNOCdOJCBGBCBgBKXEcGHCCCCKBKCdGJBBCBBEBCdZNBDe
  CSjDHCHbDCdEPBBeCLdZOjXNjNGBCCCDBBBfMHCGEBbCKbQFBESLbUOpRIBHdFWBOeSGDBBCBDBBDBcOFBCBEnKEJCBBbWHDDy
  yNRfjCBBcDHEdPCbdaYBnkJHBRCHBCBFdWBdhVBczWbAGbAGbA"

def otherMath : String := "
  dQBbhXDCBbACCCkqYBbBDLBbGEYCOCcNNEBDCEFSBEBCKBBDFGBDCCCBDBGDEFFcXFCEBCBCBBBFCCECESCCBBBHBBGClEEgMC
  BBYBRBrDCMJFFFCCCDFOBBBCGYCcFBBBbDEJCnECbFKpNWcLEbGCdclFBBBEBiDBBBdcoVdHBcTBCCBCCCEBMBBBHBcNBECIBH
  BbCBEBFBBDHBnCCZBZBbFBZBbFBZBbFBZBbFBZBICbYiiQEBbBBCBBCBBKBEBBBBGBEBBBBBBDBCBBCBBBBBBBBBBCBBCEBHBE
  BEBBBKBRFDBFBR"

def otherGraphemeExtend : String := "
  drYBYBnUBYBdYBYBiYBBBECBCJCdZBYBePBPBdmRBbEBbnKBFBBBFCdXBcTCboIBgcVCbtwTBeEBbgnLCgwMBeMBkEBOBJBdSB
  JBCBBDFBiQBMBjHBkCByJBMBchFBbeoKCbkxNCGGbtlaZdS"

def otherIdStart : String := "jhLCdgJBVBfvWC"

def otherIdContinue : String := "hBBbbRBgaJJclCBciZCgkRBdaeJB"

def xidStart : String := "
  cNbAGbAbVBKBEBFXBbFBrQEMOFHBBBeZFBCDDBBGBBDBBBUBdFBfJIgKBbMCBGbPcTbBEEbTbRbJCBdVBBPCHCKDCBQBBbEbDd
  LLBYbHJCEBFWEBJBDBXZHLFYBGRbQcGcCDBSBHKPQEICCCWBHBBDEDBQBNCBDOCKBIGECCWBHBCBCBCbFEBBTDQJBDBWBHBCBF
  DBSBPCXBLICCCWBHBCBFDBbECBDPBRBBGDDBEDCBBBCDCDDDMWBcAIBDBXBQDBbADCBCCbEBEIBDBXBKBFDBbFCBCPCRJBDBbP
  CBQBFDIDYGFSDYBJBBCHcGbWBBNHcGCBBBFBYBBBKBBKBCFBBVEbGBcLIBbKbBFeLbRUBQGEEDBDCHDENMBRbMBBFBCbRBmVBE
  CHBBBECbPBECbHBECHBBBECPBcFBECcPbLQQdICGDxWCRBbAFcXDLHSNTOSONBDPcAbJBEBcPdLHbPBBFcSKbFbXbECFLbSEbA
  cCXJcBdEBdPbVRIcCbENCKbSbAbKbPDKbKCLFbRCDbPEBGBCDBFhKcMkSCGCbMCGCIBBBBBBBbFCcBBHBBDDBHDECGENFDBHeM
  BNBQNdXBEBCKBBCGGBBBBBBQCEFFEBRbPdzBiVGEDCMbMBBFBCcEHBQXJHBHBHBHBHBHBHBHvEDZJHFCFEdIGDBdMBEFbRBdQR
  bGbWQtSjtOcMbguFcPbUCkJDQKCUbVQbFCdCbNJCdZCcPCCBBBIVQBDBEBXbDcAObYcKGDBBCLbCKXZbDHbVbCBQFBKKFBbPXD
  BIUXDBDbYBBDCCFCBBBYDCLHDMGCGCGJHBHBbRBOGeLbDqnSMXEbXmnCoCCeCbMHMFFBBKBNBFBBBCBCBeEbHfJGiKScMCcCbO
  KePBBBDBBBBBBBBeWbKbAGbALcECbFDGCGCGCDbJMBbABTBCBPCObIeTcRcBkHbDDbXbVbGNbEFbMKbECbKEIBFbQgCSbKEbKE
  bOIcAMLBPBHBCBLBPBHBCDcAMlZJWKIYGBbQBJcRGCBBbSBCDBCXKXJbFcNTBCKWKbAcScEGCcMBPEBDBbDbQbDDbDbJIBbCbB
  cCKWKTNSeGcVcDbZNbZNbKbMbCJXjQbQGCQDcHbDKBIWbQSbUVbBXMcBcFCCBNbTbGZbAbKbDBCBIbJDBMbWOEVBBBbJSBZTCc
  LHBBBEBPBKHbVbMICCCWBHBCBFDBSBMFbEKBBCBBbMBBZBBBbScBSEUDbEbWUCBBhCbVbPEbKbWUBcHbRNBcTbBbLHhDbSeMcM
  bFICBCIBCBYPBBBdQICbNQBBBbCBKbOHBVBLbUTBScVhRbHbFJBbLRBbXbEeIHBCBbMVBZGBCBbGOBmPTPBBNBbIeUBdBbjMdY
  eHRhOdxKdTPbpGRGZfxRFwLkdDbEcpUvXHbFRdBRbESbWQEbFVFTqQbTiDcMeYcXFBcONcMCBBbCjcAIbvQbPKnfREBHBCBlFP
  BbDDCBOEIpGdkUeDFNDJHKiwKdHBcTBCCBCCCEBMBBBHBcNBECIBHBbCBEBFBBDHBnCCZBZBbFBZBbFBZBbFBZBbFBZBIcsYbF
  GGkBcKfQbTKHQBmJbESbSsQbCiUbECBtBHBEBCBPBhPcHcQHBbuIEBbBBCBBCBBKBEBBBBGBEBBBBBBDBCBBCBBBBBBBBBBCBB
  CEBHBEBEBBBKBRFDBFBRgoAclfCbGgdUGiOCinQOlbLPxYdqWuWcfYhhZFgfG"

/-- At the start of identifiers, but not in every normal form. -/
def idStartOnly : String := "biGBebOBeXBmvVCczeFGpQCeMBBBBBBBBBBBBBBBlBC"

/-- In identifiers in every normal form; at the start, not in every one. -/
def xidContinueOnly : String := "fjVBeXBdngCC"

/-- Ignored for case, but of none of the categories that are. -/
def caseIgnorableSigns : String := "bNBGBLBeUBbbRBsDBfSBjxJCKBCBdgbBBcKBCBgVBGBLB"

def changesWhenLowercased : String := "
  cNbAdXXBHbHBBBBBBBBBBBBBBBBBBBBBBBBBBBBBBBBBBBBBBBBBBBBBBBBBBBBBBBCBBBBBBBBBBBBBBBCBBBBBBBBBBBBBBB
  BBBBBBBBBBBBBBBBBBBBBBBBBBBBBBBCBBBBDCBBBCBDCEBCBDDCBCBBBBBCBBCBBCBDBBBCDBHCBCBCBBBBBBBBBBBBBBBBCB
  BBBBBBBBBBBBBBBBCCBBBDBBBBBBBBBBBBBBBBBBBBBBBBBBBBBBBBBBBBBBBBBBBBBBBBBBBBBBBBBBHCBCCBBEBBBBBBBBlD
  BBBDBIBGBBDBBBCBRBJbJBIBBBBBBBBBBBBBBBBBBBBBBBFBCBBCCbZbWBBBBBBBBBBBBBBBBBBBBBBBBBBBBBBBBBJBBBBBBB
  BBBBBBBBBBBBBBBBBBBBBBBBBBBBBBBBBBBBBBBBBBBBBBBCBBBBBBBBBBBBCBBBBBBBBBBBBBBBBBBBBBBBBBBBBBBBBBBBBB
  BBBBBBBBBBBBBBBBBBBBBBBBBBBBBBBBBBBBBBBBBBBBBBBBBBBBBBBBBBCbMehDbMBBFBbbUdIdgLBGbRCDmIBBBBBBBBBBBB
  BBBBBBBBBBBBBBBBBBBBBBBBBBBBBBBBBBBBBBBBBBBBBBBBBBBBBBBBBBBBBBBBBBBBBBBBBBBBBBBBBBBBBBBBBBBBBBBBBB
  BBBBBBBBBBBBBBBBBBBBBBBBBBBBBBBBBBBBBBBJBBBBBBBBBBBBBBBBBBBBBBBBBBBBBBBBBBBBBBBBBBBBBBBBBBBBBBBBBB
  BBBBBBBBBBBBBBBBBBBBBBBBBBBBBBBBBBBBBBBJIIGKIIIIGLBBBBBBBIIYIIIIIIFLFLEMFLFlLBDCGBbTQTBbfMbAcsUbWb
  WBBDCBBBBBBEBBCBIDBBBBBBBBBBBBBBBBBBBBBBBBBBBBBBBBBBBBBBBBBBBBBBBBBBBBBBBBBBBBBBBBBBBBBBBBBBBBBBBB
  BBBBBBBBBBBBBBBBBBIBBBEBbtyJBBBBBBBBBBBBBBBBBBBBBBBBBBBBBBBBBBBBBBBBBBBBBTBBBBBBBBBBBBBBBBBBBBBBBB
  BBBfFBBBBBBBBBBBBBDBBBBBBBBBBBBBBBBBBBBBBBBBBBBBBBBBBBBBBBBBBBBBBBBBBBBBBBBBBBBBKBBBBCBBBBBBBBEBBB
  CBBBDBBBBBBBBBBBBBBBBBBBBFBFBBBBBBBBBBBBBBBEBBBCDBFBBBBBBBYBbhaHbAbuZbOfGbKgALBPBHBCcqCbZgBWegObGb
  gjWbGbulKbI"

def changesWhenUppercased : String := "
  dTbAcGBbPYBIBBBBBBBBBBBBBBBBBBBBBBBBBBBBBBBBBBBBBBBBBBBBBBBBBBBBBBBBCBBBBBBBBBBBBBBCBBBBBBBBBBBBBB
  BBBBBBBBBBBBBBBBBBBBBBBBBBBBBBBBCBBBBDCBBBCBDBFBCBDDCBCBBBBBCBEBCBDBBBCBDBBBFCBCBCBBBBBBBBBBBBBBBC
  BBBBBBBBBBBBBBBBBCBCBBDBBBBBBBBBBBBBBBBBBBBBBBBBBBBBBBBBBBBBBBDBBBBBBBBBBBBBBBBBIBCCBBEBBBBBBBBGBC
  BBBCDCBEBFCBBCCBHBCBBCDGFBKCgKBbRBBBDBDDSBbBbJBCDDBBBBBBBBBBBBBBBBBBBBBBBFBBCBCBcAbWBBBBBBBBBBBBBB
  BBBBBBBBBBBBBBBBBBBBJBBBBBBBBBBBBBBBBBBBBBBBBBBBBBBBBBBBBBBBBBBBBBBBBBBBBBCBBBBBBBBBBBBCBBBBBBBBBB
  BBBBBBBBBBBBBBBBBBBBBBBBBBBBBBBBBBBBBBBBBBBBBBBBBBBBBBBBBBBBBBBBBBBBBBBBBBBBBBBBBBBBBBbXbNehCbRCDb
  dGGdfUJBBjEBDBQBeKBBBBBBBBBBBBBBBBBBBBBBBBBBBBBBBBBBBBBBBBBBBBBBBBBBBBBBBBBBBBBBBBBBBBBBBBBBBBBBBB
  BBBBBBBBBBBBBBBBBBBBBBBBBBBBBBBBBBBBBBBBBBBBBBBBBBBBBBBBBBBBBBBBBBBBHFBBBBBBBBBBBBBBBBBBBBBBBBBBBB
  BBBBBBBBBBBBBBBBBBBBBBBBBBBBBBBBBBBBBBBBBBBBBBBBBBBBBBBBBBBBBBBBBBJIGKIIIIGKIIIIOCcBBCEBBBDDBCEBDE
  CCIIKDBCEBmZBbHQEBbgLbActQbWBBDCBBBBBBGBCBKBBBBBBBBBBBBBBBBBBBBBBBBBBBBBBBBBBBBBBBBBBBBBBBBBBBBBBB
  BBBBBBBBBBBBBBBBBBBBBBBBBBBBBBBBBBBBBBBBBBBBIBBBEBMbMBBFBbtwDBBBBBBBBBBBBBBBBBBBBBBBBBBBBBBBBBBBBB
  BBBBBBBBTBBBBBBBBBBBBBBBBBBBBBBBBBBBfFBBBBBBBBBBBBBDBBBBBBBBBBBBBBBBBBBBBBBBBBBBBBBBBBBBBBBBBBBBBB
  BBBBBBBBBBBBBBBKBBBCBBBBBBBBBEBEBBCCBBBBBBBBBBBBBBBBBBBLBBBBBBBBBBBBBBBEBBBCBDBFBBBBBbABbhCBbCdCbe
  aIHMFboZbAbvHbOfGbKfZLBPBHBCcrBbZeVWegObGbgjWbGbulMbI"

def changesWhenTitlecased : String := "
  dTbAcGBbPYBIBBBBBBBBBBBBBBBBBBBBBBBBBBBBBBBBBBBBBBBBBBBBBBBBBBBBBBBBCBBBBBBBBBBBBBBCBBBBBBBBBBBBBB
  BBBBBBBBBBBBBBBBBBBBBBBBBBBBBBBBCBBBBDCBBBCBDBFBCBDDCBCBBBBBCBEBCBDBBBCBDBBBEBBCBCBBBBBBBBBBBBBBBB
  BCBBBBBBBBBBBBBBBBBDBBBBDBBBBBBBBBBBBBBBBBBBBBBBBBBBBBBBBBBBBBBBDBBBBBBBBBBBBBBBBBIBCCBBEBBBBBBBBG
  BCBBBCDCBEBFCBBCCBHBCBBCDGFBKCgKBbRBBBDBDDSBbBbJBCDDBBBBBBBBBBBBBBBBBBBBBBBFBBCBCBcAbWBBBBBBBBBBBB
  BBBBBBBBBBBBBBBBBBBBBBJBBBBBBBBBBBBBBBBBBBBBBBBBBBBBBBBBBBBBBBBBBBBBBBBBBBBBCBBBBBBBBBBBBCBBBBBBBB
  BBBBBBBBBBBBBBBBBBBBBBBBBBBBBBBBBBBBBBBBBBBBBBBBBBBBBBBBBBBBBBBBBBBBBBBBBBBBBBBBBBBBBBBBbXbNfmEGdf
  UJBBjEBDBQBeKBBBBBBBBBBBBBBBBBBBBBBBBBBBBBBBBBBBBBBBBBBBBBBBBBBBBBBBBBBBBBBBBBBBBBBBBBBBBBBBBBBBBB
  BBBBBBBBBBBBBBBBBBBBBBBBBBBBBBBBBBBBBBBBBBBBBBBBBBBBBBBBBBBBBBBHFBBBBBBBBBBBBBBBBBBBBBBBBBBBBBBBBB
  BBBBBBBBBBBBBBBBBBBBBBBBBBBBBBBBBBBBBBBBBBBBBBBBBBBBBBBBBBBBBJIGKIIIIGKIIIIOCIIIIIIFBCGBDDBCIECCII
  KDBCnEBbHQEBbgLbActQbWBBDCBBBBBBGBCBKBBBBBBBBBBBBBBBBBBBBBBBBBBBBBBBBBBBBBBBBBBBBBBBBBBBBBBBBBBBBB
  BBBBBBBBBBBBBBBBBBBBBBBBBBBBBBBBBBBBBBIBBBEBMbMBBFBbtwDBBBBBBBBBBBBBBBBBBBBBBBBBBBBBBBBBBBBBBBBBBB
  BBTBBBBBBBBBBBBBBBBBBBBBBBBBBBfFBBBBBBBBBBBBBDBBBBBBBBBBBBBBBBBBBBBBBBBBBBBBBBBBBBBBBBBBBBBBBBBBBB
  BBBBBBBBBKBBBCBBBBBBBBBEBEBBCCBBBBBBBBBBBBBBBBBBBLBBBBBBBBBBBBBBBEBBBCBDBFBBBBBbABbhCBbCdCbeaIHMFb
  oZbAbvHbOfGbKfZLBPBHBCcrBbZeVWegObGbgjWbGbulMbI"

def joinControls : String := "mdOC"

def whiteSpace : String := "JFSBdWBbABihJBdpNLbDCFBbVBfxWB"

def emojiModifiers : String := "hhiXF"

def regionalIndicators : String := "hgoKbA"

/-! ## Properties that follow from others -/

def lowercase : List String := [lowercaseLetters, otherLowercase]

def uppercase : List String := [uppercaseLetters, otherUppercase]

def cased : List String := titlecaseLetters :: (lowercase ++ uppercase)

def alphabetic : List String :=
  cased ++ [modifierLetters, otherLetters, letterNumbers, otherAlphabetic]

def caseIgnorable : List String :=
  [nonspacingMarks, enclosingMarks, formats, modifierLetters, modifierSymbols, caseIgnorableSigns]

def graphemeExtend : List String := [nonspacingMarks, enclosingMarks, otherGraphemeExtend]

def xidContinue : List String :=
  [xidStart, nonspacingMarks, spacingMarks, decimalNumbers, connectors, otherIdContinue,
    xidContinueOnly]

/-- The characters of words: letters, marks, digits, connectors and what joins letters. -/
def wordCharacters : List String :=
  alphabetic ++ marks ++ [decimalNumbers, connectors, joinControls]

/-- Properties that a character has or has not, by their names. -/
def binary : List Property := [
  ⟨["alpha", "alphabetic"], alphabetic⟩,
  ⟨["ahex", "asciihexdigit"], ["bWKHGbAG"]⟩,
  ⟨["bidic", "bidicontrol"], ["ciEBjvLCbAFcDE"]⟩,
  ⟨["bidim", "bidimirrored"], ["
    bOCSBBBbCBBBbDBBBbTBPBfmSEcuNCdqQCKCcCCOCgVBhKEDGDBDCDEBEBBBBEJFBBSFEJCBBBIBbGCEFBJCCTFCJFCCEYCQ
    IEUCHCbpTOcWBCEBCBDFEFDDOpNWCGBOIBHGDBEFBCCFEBBDCCKGCCMTBECBBBCBBEFCGDYCLCEEBCCCEbRCIBbOFBBBDFFD
    EBDFBBjWBtVEDCBCOCCKbRIqLKCIdacRGFCgGCSBBBbCBBBbDBBBBCBCddpNBcFBcFBcFBcFB"]⟩,
  ⟨["cased"], cased⟩,
  ⟨["ci", "caseignorable"], caseIgnorable⟩,
  ⟨["cwcf", "changeswhencasefolded"], ["
    cNbAdMBKXBIbGBBBBBBBBBBBBBBBBBBBBBBBBBBBBBBBBBBBBBBBBBBBBBBBBBBBBBBBCBBBBBBBBBBBBBBBBCBBBBBBBBBB
    BBBBBBBBBBBBBBBBBBBBBBBBBBBBBBBBBBBCBBBBBBBCBBBCBDCEBCBDDCBCBBBBBCBBCBBCBDBBBCDBHCBCBCBBBBBBBBBB
    BBBBBBCBBBBBBBBBBBBBBBBBCCBBBDBBBBBBBBBBBBBBBBBBBBBBBBBBBBBBBBBBBBBBBBBBBBBBBBBBBBBBBBBBHCBCCBBE
    BBBBBBBBjMBbQBBBDBIBGBBDBBBCBRBJWBMDDCBBBBBBBBBBBBBBBBBBBBBBBBBCCCBBBCCbZbWBBBBBBBBBBBBBBBBBBBBB
    BBBBBBBBBBBBJBBBBBBBBBBBBBBBBBBBBBBBBBBBBBBBBBBBBBBBBBBBBBBBBBBBBBBCBBBBBBBBBBBBCBBBBBBBBBBBBBBB
    BBBBBBBBBBBBBBBBBBBBBBBBBBBBBBBBBBBBBBBBBBBBBBBBBBBBBBBBBBBBBBBBBBBBBBBBBBBBBBBBCbMbWBefGbMBBFBb
    fEGdfUKGbRCDmIBBBBBBBBBBBBBBBBBBBBBBBBBBBBBBBBBBBBBBBBBBBBBBBBBBBBBBBBBBBBBBBBBBBBBBBBBBBBBBBBBB
    BBBBBBBBBBBBBBBBBBBBBBBBBBBBBBBBBBBBBBBBBBBBBBBBBBBBBBBBBBBBBBBBBBBFCCBBBBBBBBBBBBBBBBBBBBBBBBBB
    BBBBBBBBBBBBBBBBBBBBBBBBBBBBBBBBBBBBBBBBBBBBBBBBBBBBBBBBBBBBBBBBBBBBBBBJIIGKIIIIGLBBBBBBBIIQbWCD
    CGFDCGLEMFFDCGlLBDCGBbTQTBbfMbAcsUbWbWBBDCBBBBBBEBBCBIDBBBBBBBBBBBBBBBBBBBBBBBBBBBBBBBBBBBBBBBBB
    BBBBBBBBBBBBBBBBBBBBBBBBBBBBBBBBBBBBBBBBBBBBBBBBBBBBBBBBBIBBBEBbtyJBBBBBBBBBBBBBBBBBBBBBBBBBBBBB
    BBBBBBBBBBBBBBBBTBBBBBBBBBBBBBBBBBBBBBBBBBBBfFBBBBBBBBBBBBBDBBBBBBBBBBBBBBBBBBBBBBBBBBBBBBBBBBBB
    BBBBBBBBBBBBBBBBBBBBBBBBBKBBBBCBBBBBBBBEBBBCBBBDBBBBBBBBBBBBBBBBBBBBFBFBBBBBBBBBBBBBBBEBBBCDBFBB
    BBBBBYBbiGdCbeaIHMFbnTbAbuZbOfGbKgALBPBHBCcqCbZgBWegObGbgjWbGbulKbI"]⟩,
  ⟨["cwcm", "changeswhencasemapped"],
    [changesWhenLowercased, changesWhenUppercased, changesWhenTitlecased]⟩,
  ⟨["cwl", "changeswhenlowercased"], [changesWhenLowercased]⟩,
  ⟨["cwt", "changeswhentitlecased"], [changesWhenTitlecased]⟩,
  ⟨["cwu", "changeswhenuppercased"], [changesWhenUppercased]⟩,
  ⟨["dash"], ["bTBcaUBbZBfkJBbnPBdbDGcJBbNBPBpABeoIBCBbFCEBbCBrEBTBeHBczwACbLBKBgNBflOBmGB"]⟩,
  ⟨["di", "defaultignorablecodepoint"], ["
    gRBzXBbbOBegWCckHCdHFdaPFbAFbXQgkYBczmPQjFBgEBdBJctlNEhwXIbtkzLgbO"]⟩,
  ⟨["dep", "deprecated"], ["mRBbyVBdkTBBBdcJCdiJGbaVCbzryKB"]⟩,
  ⟨["dia", "diacritic"], ["
    dQBBBcTBGBEBCCtJgDBIFGRCEBJCjTFiBBcDbTBBBCBCBBfBIECfECECDDcPbBdNLcGLbICeWIbPKQbCcJBQBDEbCBcWBQBe
    GBQBeGBQBbVDcIBQBHBePBeGBQBeGBQBeFCQBeUBeHBMGBBeDBNFcXCbBBBBBBECcODBCcKBeIBBCbOCEFZHBBKCbbDDbkMC
    bEBfSLJBnJDlGBUICBbWPCLeABPBbMJcCCcGBLCcOCcMGdEZEBGBCDbYcLbWbKFMbLLrDBBDLDNDNDNCexKDmFBtMGeBEdRB
    bsmKBMCBBbCCdECObIdYDeFCMBbLBfVBbBScFEbKBdRBMBbKBfTDcNEbZBdWFJDeYCbdzSBbdPQkKBBBbVBbTCcPBbdKBbtN
    GBbQBJyNDEBgJCvZGbMBbAFpJDcSLbXEhKBbPBcUCeQCcKBcYBJDeACgWCdCCQBYHDFdLDBCNCdRBDBeTCjRCeWBeOCeLBkJ
    CjYCEBgABdFBSBdDBqFBjYBBCdDBqJCXBhyAPqzPBdsAFcHHvSCvARdCCygCEBHBCltHbUCXuYDDGIICHbEEfmWcKhMHoLBc
    JEbdMCbcIHeFDBD"]⟩,
  ⟨["emoji"], ["
    bJBGBFKeHBEBlyRBMBiIBWBdMGPCoDCMBgKBZLEDhRBiXCKBJBcGEBFJBCBCCCBEBCBBCCBDBDCIDFBBBFMLCCBBCBBSBCCS
    GBBBCDCFBCCECLCFCCBFCBBBCUCFGBECBEBCBCGBBCBBBBBGBDBGBKCPBCBEBBBEDBBLCbWDJBOBOBoICrVDTCbZBEBbvUBM
    BxDBBBgmrQBhUBgECMCOBCKcXbABCXBUBCJVCgSbICeICCBDCdFCDBkDBcLLGBYHCCIMBCECBECNCCBICJBFDMDIDCBBBEBG
    BDBGdIbWcSFICDEKDBBCDBCKiTMEBkXbVBKBhDeINDKFcEHPCLGJ"]⟩,
  ⟨["ecomp", "emojicomponent"], ["bJBGBFKmbJBiFBdftRBdoiWbAtNFceAEbsvuQdS"]⟩,
  ⟨["emod", "emojimodifier"], [emojiModifiers]⟩,
  ⟨["ebase", "emojimodifierbase"], ["
    olHBiLBQEgsjVBcIDCBCDeNCCLVTDBEDBDHBBBYBhTCEBVBECgSDDFdFBQDJBLBwDBCBIIGBJKCDcEBcJCBCBBRDBNiV
    DbQJ"]⟩,
  ⟨["epres", "emojipresentation"], ["
    nhQChXEDBCBuBCVCbYMbRBTBNBICRCFCIBFBVBHCBBEBCBHBECbCBbJBBBEDBBcJDYBOBbhBCbZBEBgplEBhUBhIBCKcXbAB
    BYBUBCFBDVCgSbHMJBcSBWMbREFMRDBDcTBBBhFCcLNEBYSBbACNBdIdHbWcSGBDDCDEELCHJiTMEBkXbVBKBhDeINDKFcEH
    PCLGJ"]⟩,
  ⟨["extpict", "extendedpictographic"], ["
    gNBEBlyRBMBiIBWBdMGPCoDCMBdRBcSBZLEDhRBiXCKBJBcGEBGBMBeKKeOCLBBBBGBDBGBKCPBCBEBBBEDBBLFbTDJBOBOB
    oICrVDTCbZBEBbvUBMBxDBBBgmrMjWNDbFBcIGMCOBCKScFbBPKBUBCJBEJqSFmGIkGbWeYeMMdHbRMEcEIKGbOIbEdEMbVB
    KBqZjWbnI"]⟩,
  ⟨["ext", "extender"], ["
    hBBuQCbhUBqZByGBfHBdLBbcYBeXBdnFBcEBxNBpIBcQBhkJBbRFdZCdPDbqbUBcgSBblABWBfHBeEBVCbfzVBdbKCcfBBbB
    BEBbvBBlHBeMCtEDbvJBbeoFCbtKCBBbqyACbuFBbgUD"]⟩,
  ⟨["grbase", "graphemebase"], ["
    bGdRbHNBwWeIICGEHBBBUBiQHgKBbMCbYCDbUBBBCBCBJbBEGRKLBBbUVQBdXIBGCCBEbGCBBbEbDdLLBObRJHDYEBJBDBHP
    BZFBBLFbFRbQcFcDBBBEIEBDHKCbDBCBICCCWBHBBDEDBBCGCCCBBNCBDEYFBBGECCWBHBCBCBCEDYEBBHKCDBBMBBJBDBWB
    HBCBFDEIBBCDBPCEMHBICBICCCWBHBCBFDBCBGCCCPCBDESLBBGDDBEDCBBBCDCDDDMFBBCDDBDDBVVGDBIBDBXBQDBDETDC
    BCCEKHKBLBDBXBKBFDCCBBCYCBCEKBDOLBDBbPCBBCFDBDBCEDBKEbACCBSDYBJBBCHJCGHHKCDMbWBCLIINbLCBBBFBYBBB
    KBCJBCFBBJKCEbGYCbBBBBBBOBbKSBFBCFbXIBGBNbLbTEBGBCCCZCEDQENBCCGBPBbOBBFBCoNBECHBBBECbPBECbHBECHB
    BBECPBcFBECcPFbDDbAGdICGCzTDdLHSNTDCJSONBDPcACBHIBCLJDKGKGLFKGdLHFCbIBBFcSKbFEECDECBGHBDbQCFLbSE
    bAGLDcFCCDcEBBJBBCIGNKGKGOdIbWKEDIBbDJMCbGECGcEBBCDBBNbWICFPDcKFbRCLLBNBHEBGBDCBFhKcMkSCGCbMCGCI
    BBBBBBBbFCcBBPBOCGBTCDBJBLFYHbXQCCbBBNDbHcLfKEzQWLVcrSCbGBnGDCFbTBBFBCcEHCPXJHBHBHBHBHBHBHBHbHdQ
    bIbABdLMiGbAcGGQBdIEdXFbRBdQBdIJbWBbriRDcDJnKUbVEBKbGCdCCGIhYCCBBBIVQBDBEBZCFEKGcEIcQKMYNBbMIZLB
    MbEGbWBCECCCBNBLEHBZBbPGCCCLDBIBBCKCbGBbZBBDCCFCBBBYRCILGCGCGJHBHBcIEeNBCBEDKGqnSMXEbXmnCoCCeCbM
    HMFFBBYBFBBBCBCBeVQrDCcCHBbGQQKWbJBTBEEFBfFEgBCbFDGCGCGCDDHBHNCCMBbABTBCBPCObIeTFDEbTDdKBNDBbVbT
    fBbDDbXQbBEbKJbEFbMKbEBbLEObQgCCKGbKEbKEbOIcALMBPBHBCBLBPBHBCDcAMlZJWKIYGBbQBJcRGCBBbSBCDBCXBcUI
    JbWTBCFbHDbBFBcMcEEUCbVPEBDBbDKJHJHcMbGbLGMJcCDbDCbBFbAHEMHdCcVcDbZNbZHbQMKGbMIYICiAbFBbQDBCCQDc
    HbOIWLJWSEEbMbCUXJBBcCPHEbEBCCBMbXECCCBEOZHKJbKFBJSIbJBDLcAJBBIECBQBULSBbCDCEGBCcLHBBBEBPBLGbVBD
    NKICBICCCWBHBCBFDBBBBECCCCDBMHbCKBBCBBbMBBBCPBBCDBBDBCbNcEICDBBVBBBDbEbWBCGBBCBBCBCEIKgKbVBCGECB
    CbBbKbZICBBCELKGNTbRBBBCICGKGUbCbBDBBCEBJXhDbVJBCBdWdFMICBCIBCBYBFBCGEBDJKcSICbQIEBEbBBKbOGCEIJB
    GCDbUNBCJNcVHKhAbIOKGJBbMOBBGKbDDbGZBHBCBcXHBCBbMVBJKGGBCBbLECBBBBHKlYTCEJPBbKICDXdIBPbYNbjNdYeH
    BFLhOdxKdVNbpGRGZfxRFwLkdDbEMDDKcoSvXHbFBKEdDBKGbEHBKbWHPKKBHBVFTqQcGhQdNdXcXFcELNcMEbCjcAIbvQbP
    KnfREBHBCBlFPBbDDCBOEIpGdkUeDFNDJHKCBCBfvKjQGqUgAeMcIjMKbNCcIFDWCHbEEcJVcODBeSUMUMdJJZfFdHBcTBCC
    BCCCEBMBBBHBcNBECIBHBbCBEBFBBDHBnCClGCvQcDEbYIBOBHbrWbFGGkBcKfQbTKHCKECmIbESbSEKFBrWbCEKiGbECLEB
    sMHBEBCBPBhPCJbWcQHBEKECbeFcQcYcJhMEBbBBCBBCBBKBEBBBBGBEBBBBBBDBCBBCBBBBBBBBBBCBBCEBHBEBEBBBKBRF
    DBFBRcACkKbSEdWMPCPBPBbLKgScEbDNbSEJHCOGfYblWERDNDePEdRGMEBPMEcEIKGbOIbECMECcKnCMOCNDKFcEHPCLGJH
    fRBdYbnQclfCbGgdUGiOCinQOlbLPxYdqWuWcfYhhZFgfG"]⟩,
  ⟨["grext", "graphemeextend"], graphemeExtend⟩,
  ⟨["grlink", "graphemelink"], ["
    dnPBeXBeXBeXBeXBeXBeXBeXBeFCQBeUBeHBeXBhTBgYCcpLCbEBgBBzDBiTBdXCcSCgqTBbukKBbLBfVBfMBeEBlXBjMBbj
    sRBchIBbPBOBcFBeRCfJBeMBgYBdUBeYDeJBeXBjSBeXBeOBeMBkJBjZCgFBdFBSBdDBqFBkACdDBqJCyzCB"]⟩,
  ⟨["hex", "hexdigit"], ["bWKHGbAGdslLKHGbAG"]⟩,
  ⟨["hyphen"], ["bTBeXBbvWBgzZBdbDCfiBBbcLBczuLBgNBdJB"]⟩,
  ⟨["idcompatmathcontinue"], ["gWCFBmaGBDLBPoHBEBWBgjjEBZBbFBZBbFBZBbFBZBbFBZB"]⟩,
  ⟨["idcompatmathstart"], ["mwWBEBWBgjjEBZBbFBZBbFBZBbFBZBbFBZB"]⟩,
  ⟨["idc", "idcontinue"], idStartOnly :: xidContinue⟩,
  ⟨["ideo", "ideographic"], ["
    seWCZJODblDjtOcMbfbKbhsIoCCeCbsiKBbBjcAIbvQbPKnuLpGbdeIclfCbGgdUGiOCinQOlbLPxYdqWuWcfYhhZ
    FgfG"]⟩,
  ⟨["idsb", "idsbinaryoperator"], ["seACCKtDB"]⟩,
  ⟨["ids", "idstart"], [xidStart, idStartOnly]⟩,
  ⟨["idst", "idstrinaryoperator"], ["seCC"]⟩,
  ⟨["idsu", "idsunaryoperator"], ["seOC"]⟩,
  ⟨["joinc", "joincontrol"], [joinControls]⟩,
  ⟨["loe", "logicalorderexception"], ["fkIFeTFedSDCBccxMCCBBC"]⟩,
  ⟨["lower", "lowercase"], lowercase⟩,
  ⟨["math"], [mathSymbols, otherMath]⟩,
  ⟨["mcm", "modifiercombiningmark"], ["ckICCBfBBGBDCsNCBDDBbFB"]⟩,
  ⟨["nchar", "noncharactercodepoint"], ["
    dsdCbGuGCdsyOCdsyOCdsyOCdsyOCdsyOCdsyOCdsyOCdsyOCdsyOCdsyOCdsyOCdsyOCdsyOCdsyOCdsyOCdsyOC"]⟩,
  ⟨["oalpha", "otheralphabetic"], [otherAlphabetic]⟩,
  ⟨["odi", "otherdefaultignorablecodepoint"], ["bgPBfiLCckHCdhNBglIBdacPBdBJbwmiHBBbEdSeYjGfiM"]⟩,
  ⟨["ogrext", "othergraphemeextend"], [otherGraphemeExtend]⟩,
  ⟨["oidc", "otheridcontinue"], [otherIdContinue]⟩,
  ⟨["oids", "otheridstart"], [otherIdStart]⟩,
  ⟨["olower", "otherlowercase"], [otherLowercase]⟩,
  ⟨["omath", "othermath"], [otherMath]⟩,
  ⟨["oupper", "otheruppercase"], [otherUppercase]⟩,
  ⟨["patsyn", "patternsyntax"], ["
    bHPKHbAEBBbAEbIHBBBCBBBCEBEBDBXBbFBluEYIPCTBKlTbbSgEyGbEbrOtSeYoVDEZPBczqZCkBC"]⟩,
  ⟨["patws", "patternwhitespace"], ["JFSBdWBlyMCYC"]⟩,
  ⟨["pcm", "prependedconcatenationmark"], ["chCGiHBbXBoUCdCBdvxYBPB"]⟩,
  ⟨["qmark", "quotationmark"], ["bIBEBfBBPBlwUIZCfiDBrPENDdabPEhHBEBdMC"]⟩,
  ⟨["radical"], ["rpWbABdLMiG"]⟩,
  ⟨["ri", "regionalindicator"], [regionalIndicators]⟩,
  ⟨["sterm", "sentenceterminal"], ["
    bHBMBQBcaBBfRDgYBbRDjMBcJBBBDClHCcpWCbeKBECbdTBhQCgBCbTBFBmCCnQEgGCKCCCbDDhFCcNCbjWBXCJDeuXDlUBN
    BWCqNBbshWBkKCiTBDBoSCdICdRBfWCfRDfOCjPBbfcWBCCcHBDCgNBMBQBcNBedWCbxDFbSEhHCeNEeXDeZCGBQCdKCBCeE
    BlMCeNCoJCFPeBCjPDtXBBBjRCdJCqECbaQCcWCbcmBCfDBcNCLBvHClKBbdoGBliMB"]⟩,
  ⟨["sd", "softdotted"], ["
    eBChOBkVBbEBcABUBmIBdUBBBjmNBbZBNBDBfCBgBBqFBiGCegGBgelHCbYCbYCbYCbYCbYCbYCbYCbYCbYCbYCbYCbYCdfY
    BlTCbAB"]⟩,
  ⟨["term", "terminalpunctuation"], ["
    bHBKBBBLCDBbfYBIBtTBcFBcUBOBBDgYBbRLBBjBCcCGBIbFBkBCbwUCgQBEGlZCbeJIbdTBeUDcTCgBDDBbNECCmCCnQEgG
    CKCBDbDDhFFcKCbjWBXCJDeuXDlUBNBEBKBBCDCqMCbshVCkJDiTFoSCdICdRBfVDfRDeXBQCjPBbfcWBCCcFDBEgNBKBBBL
    CDBcNBCBbpQBbWBbsOBhRBlYCfWGcQGdLEbkQFbSEhHHeIEeXDeZCGBQCdKFeEBlMCeNDMCnUEDPeBCjPDtXBBBjRCdJCECp
    YDbTByVCcWCbyXFbamZCfDBcNDKBvHClJCbdoGBliLE"]⟩,
  ⟨["uideo", "unifiedideograph"], ["
    tsAjtOcMbfbKbicSCBBBCKBBBBCCDdveCclfCbGgdUGiOCinQOlbLPxYgrQhhZFgfG"]⟩,
  ⟨["upper", "uppercase"], uppercase⟩,
  ⟨["vs", "variationselector"], ["jcTDBBdjcAQbwnkYjG"]⟩,
  ⟨["wspace", "whitespace", "space"], [whiteSpace]⟩,
  ⟨["xidc", "xidcontinue"], xidContinue⟩,
  ⟨["xids", "xidstart"], [xidStart]⟩]

end TypeLang.Property
