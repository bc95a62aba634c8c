import TypeLang.Pattern.Property.Basic

/-!
# General categories

Each character is of one category. The categories that are told apart have tables, and a group of
them has the tables of its categories.
-/

namespace TypeLang.Property

def uppercaseLetters : String := "
  cNbAdXXBHbHBBBBBBBBBBBBBBBBBBBBBBBBBBBBBBBBBBBBBBBBBBBBBBBBBBBBBBBCBBBBBBBBBBBBBBBCBBBBBBBBBBBBBBB
  BBBBBBBBBBBBBBBBBBBBBBBBBBBBBBBCBBBBDCBBBCBDCEBCBDDCBCBBBBBCBBCBBCBDBBBCDBHBCBCBCBBBBBBBBBBBBBBBCB
  BBBBBBBBBBBBBBBBCBCBBDBBBBBBBBBBBBBBBBBBBBBBBBBBBBBBBBBBBBBBBBBBBBBBBBBBBBBBBBBBHCBCCBBEBBBBBBBBlD
  BBBDBIBGBBDBBBCBRBJbJBCDDBBBBBBBBBBBBBBBBBBBBBBBFBCBBCCbZbWBBBBBBBBBBBBBBBBBBBBBBBBBBBBBBBBBJBBBBB
  BBBBBBBBBBBBBBBBBBBBBBBBBBBBBBBBBBBBBBBBBBBBBBBBBCBBBBBBBBBBBBCBBBBBBBBBBBBBBBBBBBBBBBBBBBBBBBBBBB
  BBBBBBBBBBBBBBBBBBBBBBBBBBBBBBBBBBBBBBBBBBBBBBBBBBBBBBBBBBBBCbMehDbMBBFBbbUdIdgLBGbRCDmIBBBBBBBBBB
  BBBBBBBBBBBBBBBBBBBBBBBBBBBBBBBBBBBBBBBBBBBBBBBBBBBBBBBBBBBBBBBBBBBBBBBBBBBBBBBBBBBBBBBBBBBBBBBBBB
  BBBBBBBBBBBBBBBBBBBBBBBBBBBBBBBBBBBBBBBBBJBBBBBBBBBBBBBBBBBBBBBBBBBBBBBBBBBBBBBBBBBBBBBBBBBBBBBBBB
  BBBBBBBBBBBBBBBBBBBBBBBBBBBBBBBBBBBBBBBBBJIIGKIIIIGLBBBBBBBIIcUEMEMEMFLEkCBEBDDCDCBDFGBBBBBBECEKCF
  BcJBdzGbWbWBBDCBBBBBBEBBCBIDBBBBBBBBBBBBBBBBBBBBBBBBBBBBBBBBBBBBBBBBBBBBBBBBBBBBBBBBBBBBBBBBBBBBBB
  BBBBBBBBBBBBBBBBBBBBBBBBBBBBIBBBEBbtyJBBBBBBBBBBBBBBBBBBBBBBBBBBBBBBBBBBBBBBBBBBBBBTBBBBBBBBBBBBBB
  BBBBBBBBBBBBBfFBBBBBBBBBBBBBDBBBBBBBBBBBBBBBBBBBBBBBBBBBBBBBBBBBBBBBBBBBBBBBBBBBBBBBBBBBBBKBBBBCBB
  BBBBBBEBBBCBBBDBBBBBBBBBBBBBBBBBBBBFBFBBBBBBBBBBBBBBBEBBBCDBFBBBBBBBYBbhaHbAbuZbOfGbKgALBPBHBCcqCb
  ZgBWegObGbgjWbGbmmQbAbAbAbAbAbABBCCBCCCEBIbAbAbACBECIBHbBCBEBFBBDHbBbAbAbAbAbAbAbAbAbAbAbAbEZbHZbH
  ZbHZbHZbHBgnLbI"

def lowercaseLetters : String := "
  dTbAcGBbPYBIBBBBBBBBBBBBBBBBBBBBBBBBBBBBBBBBBBBBBBBBBBBBBBBBBBBBBBBCBBBBBBBBBBBBBBBCBBBBBBBBBBBBBB
  BBBBBBBBBBBBBBBBBBBBBBBBBBBBBBBBCBBBBDCBBBCBDCEBCBDDCBCBBBBBCBBCBBCBDBBBCCCDGBCBCBBBBBBBBBBBBBBBBC
  BBBBBBBBBBBBBBBBBCCBBBDBBBBBBBBBBBBBBBBBBBBBBBBBBBBBBBBBBBBBBBBBBBBBBBBBBBBBBBBBBHCBCCBBEBBBBBBBBc
  RBbBhLBBBDBDDSBbBbJBCDDBBBBBBBBBBBBBBBBBBBBBBBFBBCBCCbZbWBBBBBBBBBBBBBBBBBBBBBBBBBBBBBBBBBBJBBBBBB
  BBBBBBBBBBBBBBBBBBBBBBBBBBBBBBBBBBBBBBBBBBBBBBBCBBBBBBBBBBBBCBBBBBBBBBBBBBBBBBBBBBBBBBBBBBBBBBBBBB
  BBBBBBBBBBBBBBBBBBBBBBBBBBBBBBBBBBBBBBBBBBBBBBBBBBBBBBBBBBBbWbPehBbRCDbdGGdfUJBBeNbScLNBbIdYBBBBBB
  BBBBBBBBBBBBBBBBBBBBBBBBBBBBBBBBBBBBBBBBBBBBBBBBBBBBBBBBBBBBBBBBBBBBBBBBBBBBBBBBBBBBBBBBBBBBBBBBBB
  BBBBBBBBBBBBBBBBBBBBBBBBBBBBBBBBBBBBBBBBBBBBJBBBBBBBBBBBBBBBBBBBBBBBBBBBBBBBBBBBBBBBBBBBBBBBBBBBBB
  BBBBBBBBBBBBBBBBBBBBBBBBBBBBBBBBBBBBBBBBBBBBJIGKIIIIGKIIIIOCIIIIIIFBCGBDDBCIECCIIKDBCkOBDCDBbBBEBE
  BCCIEEBcBBebBbWBBDCBBBBBBEBBCBGFBBBBBBBBBBBBBBBBBBBBBBBBBBBBBBBBBBBBBBBBBBBBBBBBBBBBBBBBBBBBBBBBBB
  BBBBBBBBBBBBBBBBBBBBBBBBBBBBBBBBCHBBBEBMbMBBFBbtwDBBBBBBBBBBBBBBBBBBBBBBBBBBBBBBBBBBBBBBBBBBBBBTBB
  BBBBBBBBBBBBBBBBBBBBBBBBBfFBBBBBBBBBBBBDBBBBBBBBBBBBBBBBBBBBBBBBBBBBBBBBBBBBBBBBBBBBBBBBBBBBBBBBBB
  BBBBBIBBBBCBBBBBBBBBEBBBCBBDBBBBBBBBBBBBBBBBBBBBFBFBBBBBBBBBBBBBBBEBBBCBDBBBBBBBBBBBbABDBbfPbRFJHd
  CbeaIHMFboZbAbvHbOfGbKfZLBPBHBCcrBbZeVWegObGbgjWbGbmmKbAbAHBSbAbAbAEBBBHBLbAbAbAbAbAbAbAbAbAbAbAbA
  bAbAbAbAbAbCbCZBGbAZBGbAZBGbAZBGbAZBGBBcsYKBUGGduDbI"

def titlecaseLetters : String := "rLBCBCBbMBlfHIIIIIMBPBbVB"

def modifierLetters : String := "
  baMSEMOFHBBBfDBFBsKBiWBgICkJCEBbFBJBDBgEBgLBbvOBeXBvTBcpMBeDBxNBrWGgScLNBbIbLbaNBNBQNemXCjHBhJBsBB
  bRFFBdTCdPDbqbUBbwCGkKBeKBbCCeRJdCBXBeBDDCsBBWBfHBeEBVCdZEJBbfvIBbTCczOGBbQBJccXBbGBbjnSEtODbOCvEN
  cMCBBygQEBHBCsgNcKhTHbkFBbrBB"

def otherLetters : String := "
  gOBPBjWBEEiABbfVbBEEbTbGBKbJCBdVBBYCKDCBQBBbEbDdLLBYbHVWbQZHLFYBGRbPcHcCDBSBHKQPEICCCWBHBBDEDBQBNC
  BDOCKBIGECCWBHBCBCBCbFEBBTDQJBDBWBHBCBFDBSBPCXBLICCCWBHBCBFDBbECBDPBRBBGDDBEDCBBBCDCDDDMWBcAIBDBXB
  QDBbADCBCCbEBEIBDBXBKBFDBbFCBCPCRJBDBbPCBQBFDIDYGFSDYBJBBCHcGbWBCMGcHCBBBFBYBBBKBCJBCFXEbGBcLIBbKb
  BFeLbRUBQGEEDBDCHDENMBeJmRBECHBBBECbPBECbHBECHBBBECPBcFBECcPbLQeJxWCRBbAFcXGIHSNTOSONBDPcAbOBcPbJB
  cBHFCbIBBFcSKbFbXbECFLbSEbAcCXJcBgUbVRIcCbENCKbSbAbKbPDKbEeJEBGBCDBbpQEenVcEYXJHBHBHBHBHBHBHBHvFBc
  BBEdIIBBdMEBFbRBdQRbGbWQtSjtOcMbfcFBbrZcPbOIkIEQKCcOBbXcSgNBdZBDHBDBEBXbDcAObYcKGDBBCLbCKXZbDHbVbT
  FCJKFBbPXDBIUQBGDBDbYBBDCCFCBBBYCDLHBOGCGCGJHBHfPbJbDqnSMXEbXmnCoCCeCcPBBKBNBFBBBCBCBeEbHnZScMCcCb
  OMeMFBfFeBKBbTCbFDGCGCGCDbJMBbABTBCBPCObIeToZbDDbXbVbGNUBIGbMKbECbKEIeYdAdUbOIcAdOcAMlZJWKIfWGCBBb
  SBCDBCXKXJbFcNTBCKWKbAcScEGCcMBPEBDBbDbQbDDbDbJIBbCbBcCKWKTNSeGcVhBbKbMEBBlSbQGCQDcHbDKBIWbQSbUVbB
  XMcBcFCCBNbTbGZbAbKbDBCBIbJDBMbWOEVBBBbJSBZTCcLHBBBEBPBKHbVbMICCCWBHBCBFDBSBMFbEKBBCBBbMBBZBBBbScB
  SEUDbEbWUCBBhCbVbPEbKbWUBcHbRNBcTbBbLHhDbSiDICBCIBCBYPBBBdQICbNQBBBbCBKbOHBVBLbUTBScVhRbHbFJBbLRBb
  XbEeIHBCBbMVBZGBCBbGOBmPTPBBNBbIeUBdBbjMiWhOdxKdTPbpGRGZfxRFwLkdDbEcpUvXHbFRdBRbESbWbZVFTqTbOpPcXF
  BgTjcAIbvQbPKngHlFPBbDDCBOEIpGdkUeDFNDJHKnbCBtHbTbHBmJbESbSsQbBiVbECBtBHBEBCBPBhPbzNEBbBBCBBCBBKBE
  BBBBGBEBBBBBBDBCBBCBBBBBBBBBBCBBCEBHBEBEBBBKBRFDBFBRgoAclfCbGgdUGiOCinQOlbLPxYdqWuWcfYhhZFgfG"

def nonspacingMarks : String := "
  bdOeIkPFkFbTBBBCBCBBcULbWVQBdXHCGCCBEbJBbEbBdNLcGJJBYEBJBDBFbRDcHJbQYBbGcDBBBEIEBDHKCbDBcGBEEIBUCb
  ABCCcFBECECCDDBbECDBLCcFBEFBCEBUCWGBBcGBCBBEIBHCLCbEBcJBMBbYBDBcDBBDFDBEHCLCbDBcGBCBGBFCUCbCCcFCEE
  IBUCbDBcUBHDBBdMBCHMIdUBCJLHcVCbBBBBBBcDOBFBCFLBbKJBdYEBGBCCCZCEDQENBCCGBPBbbBDbkKDbDCbECbECcMCBHI
  BCLJBbTDBBeNCbIBeODECJBGDiLCCBcGBBHBBBBCIGKCBbWOBQbXEbWBBFBBFBbOJMCbGECCBDcEBBCDBBDcGICCfWDBNBHEBG
  BDChQcMbbSNEBDMeoCDfLBdSbGvIEeDCbsqEBEKbGCdCCkMBDBEBZCFBfVCbASNBbMIZLbUDbWBCECCbNBcPGCCCCMBIBbVBbZ
  BBDCCFCBBbQCIBjEBCBEBbdzSBbcJQQQblLBiSBfTFcmGDBCFEbODEBgJCwBEcNFmFCdBEcSLbXEeTBcCPbPBCCKDbXECCHBcJ
  DbKFBIcKBMCcAJKECBdRDCBBCGBCBgBBDIVCcFCDBbLHDFcSGNBBBBBOCdHICDBBXBdGGBBECBCjEEGCBCbBCdHICBBCeCBBBC
  GBBdXBBBCEBFjZJBCjWCBBEBfOECCEBbGKbOGCEIBJGCDbUNBCpQHBGBBdEWCHBCBCeSGDBBCBHBBcUCDBBBnJCLCcAFFBBBXB
  hxTBGPqyYMDDdsAFcHHboIBcLEdDBbdbKCgyZbUCXuYDRICHbEEfSDcyDcDEbYIBOBWFBPcaIHBRCHBCBFdWBgEHoLBcJEtOEj
  UCbcIHeFHbtciVjG"

def spacingMarks : String := "
  dkTBcDBCDIEBCbYCcGDGCCCKBbRBcGDcOBcGDIBBCcBCcGBBBGCCCKBdYCBCDDBDKBbPDcJEcJCcGBBFCCBCJCbCBOCcGDFDBD
  KBbQCcXDGISCmSCcLBgPCEBGBCCZCKDCHVCCGCBKDclSBbEBeZBHIBCnIECDECBGiQCcGBBBJBBCIGfPBbWBFBBFBCcJBbEBEC
  CBcIBCDBBDCbWIICgPBVBhhECbtlBCCBdKCbYQfMCbVBbWCECCDeGCCCYBbTBBBeFBCCFBjDCBCBCBBblxJBBBeXBbTDECeLBY
  CcHBbWDJCNBdPDDCBBgODbFCcGCBECCCDJBKCdGDHBCBBEBCBBdXDICDBeCDGBBECBjDDGECBeJDICBBeFBBCGBdZBBCEBkBDJ
  BjNGBCEBCBBBfMDIEEBdGBbDCcKBpRBOBeCBHBCBiFFECBBnMCMBbWCICBByyYDfjGcDeACbkxNCGG"

def enclosingMarks : String := "bsQCikQBciGEBDbyoXD"

def decimalNumbers : String := "
  bWKciOKfEKhQKpWKeOKeOKeOKeOKeOKeOKeOKeOKeOKdSKeOKcSKkSKcSKctQKbMKlOKeYKgKKGKhAKdIKfEKGKcaeOKbaCKbM
  KhQKWKdIKpQKbfmCKccKKdfYKGKbeQKeYKcIKfOKkSKnEKeOKoKKdYKGUcYKqGKdYKzMKdIKjMKcSKqGKyyGKdmCKdIKfEKuOK
  bkdYKecQbYdnCKqGKtIKjNKbgVKhbAK"

def letterNumbers : String := "irUDdyTbJCEfmSBZJODbsyLKbifGcBrSBIBfEFmeSeH"

def otherNumbers : String := "
  gWCFBCDdmRGoMGeQDfDHiJHRJqRKbpLUbrVKsMBcmVBDGGKhQQbPBbbYcIdAWyGbEcbHBbtCEfIKbEIBPbGKbNPbsmIGbhqNbT
  cNERCnDbBbKEbzGIZHbNJcXFWGgECCQCbUcMJcACbEDcXFeAIYIbPHmSGnObFgCKbQEeIHfEUoPUbzXCqOJbhNTbgTVbcpQHbe
  SXblyFUMUeEZibUJbjTcHBDBEcYbTBPblAN"

def connectors : String := "dRBmbVCTBdgaOCYDjFB"

def dashes : String := "bTBcaUBbZBfkJBbnPBdbDGfhXBCBbFCEBbCBrEBTBeHBczwACbLBKBgNBflOBmGB"

def openings : String := "
  bOBbYBbFBfpEBBBcuOBdpMBDBbMBcDBPByKBBBbEBbpUBBBBBBBBBBBBBdCBbGBBBBBBBBBpOBBBBBBBBBBBBBBBBBBBBBcMBB
  BbHBboVBBBBBBBZBSBBBBBBBqMBBBBBBBBBDBBBBBBBCBczrTBiHBbDBBBBBBBBBBBBBBBDBRBBBBBgOBbYBbFBDBCB"

def closings : String := "
  bPBbZBbFBfpDBBBcuOBdrDBcDBPByKBBBbEBbpUBBBBBBBBBBBBBdCBbGBBBBBBBBBpOBBBBBBBBBBBBBBBBBBBBBcMBBBbHBb
  oVBBBBBBBbSBBBBBBBqMBBBBBBBBBDBBBBBBBCCczrQBiJBbDBBBBBBBBBBBBBBBDBRBBBBBgOBbZBbFBCBCB"

def initialQuotes : String := "gPBlxKBCCCBZBffSBBBEBCBPBDB"

def finalQuotes : String := "hFBlwVBDBbCBffSBBBEBCBPBDB"

def otherPunctuation : String := "
  bHDBDCBBBBCKCDCbBBcQBFBOCHBbbABIBrYGbPBcCBCBCBbSCUCBCNBBDcWEdYBbROiZDcCPbFBkBCKBfKBeQBeRBpABMBoDBd
  MBKCgMPBBeIBcWFECeHGgPBxOJbdTBeUDcTCgBDBDbLGBEmBCiICeYHBGgECKHbCDeUEcHFcKCcMILBbgCCIIIJCECDDLBBBKe
  uCEBCeIBfNCEDCBCJBCBBCCKFBKCEBBBNCDqMDcFBhHBbryGCkJDdVBKBeLGoQEdICbODBBbXCbVBdTNQCeUEeWCQCjPBbfcUH
  CBWBUCCEDDBEHDGBBCfTDBDCBBBBCKCDCbBBbKBCCpUDzSBbWBpYBbcPBhRBbFBkMJbMBeIHcOHdLEbkQFbSEhHHeFCBEeWEbW
  CdBEEBNBBDdKGeDBlMCBCeKFKCBBeABjQXeBDbCNcYBfADjSBkEDfZBdOIdFDBFdPKiHBdRFbQCyVCcWNgTBbrSFejCCwdVCfD
  BcNFIBvGDlJEmPBbdbOBliLFeiTBbhEC"

def mathSymbols : String := "
  bRBQDcJBBBbTBEBbLBbFBbdMBuHDjyHBNBbNDNDfJBbNFGBcQFFCEBCBCBHBbFCCBBBbFkIbGCdMBbEZbOGsBBJBcCIeHBmYFC
  bFKQjWfBWcLEbGCjYbWVCGdasQBbfSBBDgIBQDcJBBBfBBGEfeFCcyeZBZBbFBZBbFBZBbFBZBbFBZBiuEC"

def currencySymbols : String := "
  bKBeVEbwJBeTBtECtECHBjLBkDBwJBdqPBdiIbHbzhVBbgmLBeEBfYBiLCDCmcSEcvxEBdrKB"

def modifierSymbols : String := "
  dQBBBcTBGBEBDBuBEMOFHBBBReNBOCbxIBiuMBBDLDNDNDNCghOCbsvRXJCdZCblOBOCbekKRbiHBBBgGBdolJF"

def otherSymbols : String := "
  gKBCBEBBBblPBkGCeXChYBKBTCjNBtVBoJBfAGBBfCBhZBbPBpBDPBBDCGUBBBBBfDIBGBCFEhPCbcYKbbVBbbUBgBbInPKJJc
  cHCBEBCKBBCGGBBBBBBEBLCOBBCBBcGCJFCEBCBCBHBbFCCBBBbFkIIEUCHCdDBbEZbOGcUWLdDdAWhBBJBcCIeHBjObSbScMj
  WtSbWVCGbNCbGBeBiVGnTCbUbABdLMiGbAQEBNCMBVCGCmYCEKbGbMJBQbFLbEIBPbGKbNPmIjtOcMbguIcDbhHEKCBBwBDbfj
  AQeXBbTDsQBDBECNCmBJcFRCDBNDBbVbTclUCwTBesSBdgNIERbcnIEFBbeuWBfvNjGQqUgAeMcIjMKbNCcIFDWCHbEEcJVcOD
  BhEdJbtXtScDEbYIBOBCcoUBehWBeZBbbTbSEdWMPCPBPBbLXgFcEbDNbSEJHCOGfYjRFbcAERDNDePEdRGMEBPMEcEIKGbOIb
  ECMECcKnCMOCNDKFcEHPCLGJHfRBdO"

def spaceSeparators : String := "bGBeXBihJBdpNLbKBbVBfxWB"

def lineSeparators : String := "meQB"

def paragraphSeparators : String := "meRB"

def controls : String := "AbGdRbH"

def formats : String := "gRBcaKGWBhKBbXBoUCdCBftJBdaQFbAFbXFBKdghJBjPDgiZBPBnkKQbzqUEhwXIbtkzMBbEdS"

def privateUse : String := "dgvOjmEcahxOdsyOCdsyO"

def unassigned : String := "
  biECGEHBBBUBpHBbMCbYCDBcDIbBEGLkKBcICdXOcHCbXCPBbCCBBLFbFBCFjDBICCCWBHBBDECJCCCEIBECBFCZCDBGECCWBH
  BCBCBCCBBFECCDDBHEBBHRKDBJBDBWBHBCBFCKBDBDCBPECMHHBDBICCCWBHBCBFCJCCCDHDECBFCSKCBGDDBEDCBBBCDCDDDM
  EFDDBECBGBOVFNBDBXBQCJBDBEHCBDCBCECKHWBDBXBKBFCJBDBEHCGCBECKBDMNBDBbZBDBGEQCbABDBSDYBJBBCHDBEGBBBI
  GKCDMcGEbDbLCBBBFBYBBBXCFBBBHBKCEbGcUBbKEbNBbKBPBNbLhQBBFBCoNBECHBBBECbPBECbHBECHBBBECPBcFBECcPCbG
  DbAGdICGCzTDdLHWJYJUMNBDBCMdQCKGKGbAGdLHbRFcSKbFBMEMEBDbQCFLbSEbAGLDcKCcNBbDCLGKGOCbFbXcZBgKIcIDPD
  cKFbRCLIbRFuOCGCbMCGCIBBBBBBBbFCcBBPBOCGBTCDBJBdXBMCbBBNDbHPbHPfKEzQWLVcrSCbGBnLFbTBBFBCcEHCOYJHBH
  BHBHBHBHBHBHBeWbIbABdLMiGbAdCBdICdZFbRBdQBdIJbWBbriRDcDJnKUhCIhYCCBBBIVcHDKGcEIcSIMGeMLbEDdABLEbHB
  cDJOCKCdZYbCKGCGCGJHBHBcIEeWCKGqnSMXEbXEnbACeCbMHMFFbABFBBBCBCBeVQrDCcCHBbGbQGbZBTBEEFBfFCBBhIDGCG
  CGCDDHBHKFCMBbABTBCBPCObIeTFDEbTDdKBNDBbVbUfAbDDbXPbCEbKJbEFbRFbEBbLEObQgCCKGbKEbKEbOIcALMBPBHBCBL
  BPBHBCDcAMlZJWKIYGBbQBJcRGCBBbSBCDBCXBcUIJbWTBCFbHDbBFBcMcEEUCbYBCFIBDBbDCDEKHJHcMbGbNEMJcCDbDCbBF
  bAHEMHdCcVcDbZNbZHbUIKGbMDbDICiAbFBbQBDCCQDcDbSIbQWbAbMbCUXJdAEbKJcQKBCZHKGcBBSIbNJdSBULSBbVcKHBBB
  EBPBLGcHFKGEBICCCWBHBCBFBKCCCDCBGBFHCHDFLKBBCBBbMBKBBCBBEBKBCICbDdOBFbEcUIKgKcCCbMbIcRLKGNTcGGKGUb
  CbBCPEXhDcIdWdFMICBCIBCBbEBCCMJKcSICbUCLbBcUIdFNcVHKhAbIOKGJBbTBOKbDDbGCWBOcVHBCBbSDBBCBJIKGGBCBbL
  BCBGHKlYZHRBbPDbDdHBPbYNbjNdYeHBFLhOdxKdVNbqSKfxRFwLkdDcGcoSvXHbFBKEdDBKGbECGKcSKKBHBVFTqQcGhQdNdX
  cXEcFHRcMFLCOjcAIbvQbPKnfREBHBCBlFPBbDDCBOEIpGdkUeDFNDJHKCIfvGjQGqUcYbUCXJeMcIjMKbNChMVcSeSUMUMdJJ
  ZfFdHBcTBCCBCCCEBMBBBHBcNBECIBHBbCBEBFBBDHBnCClGCbbAPFBPbqMbFGGiFHBRCHBCBFFcKbHBeIbTDOCKECmIbFRcGF
  BrWbQiGbREBsMHBEBCBPBhPCQbPcYEKECbeFcQcYcJhMEBbBBCBBCBBKBEBBBBGBEBBBBBBDBCBBCBBBBBBBBBBCBBCEBHBEBE
  BBBKBRFDBFBRcACkKbSEdWMPCPBPBbLKgScEbDNbSEJHCOGfYblWERDNDePEdRGMEBPMEcEIKGbOIbECMECcKnCMOCNDKFcEHP
  CLGJHfRBdYbnQclfCbGgdUGiOCinQOlbLPxYdqWuWcfYhhZFgfGbomxLBbEdSeYjGdsfOdsyOCdsyOC"

/-! ## Groups of categories -/

def casedLetters : List String := [uppercaseLetters, lowercaseLetters, titlecaseLetters]

def letters : List String := casedLetters ++ [modifierLetters, otherLetters]

def marks : List String := [nonspacingMarks, spacingMarks, enclosingMarks]

def numbers : List String := [decimalNumbers, letterNumbers, otherNumbers]

def punctuation : List String := [
  connectors, dashes, openings, closings, initialQuotes, finalQuotes, otherPunctuation]

def symbols : List String := [mathSymbols, currencySymbols, modifierSymbols, otherSymbols]

def separators : List String := [spaceSeparators, lineSeparators, paragraphSeparators]

def others : List String := [controls, formats, privateUse, unassigned]

def categories : List Property := [
  ⟨["c", "other"], others⟩,
  ⟨["cc", "control", "cntrl"], [controls]⟩,
  ⟨["cf", "format"], [formats]⟩,
  ⟨["cn", "unassigned"], [unassigned]⟩,
  ⟨["co", "privateuse"], [privateUse]⟩,
  ⟨["l", "letter"], letters⟩,
  ⟨["lc", "casedletter"], casedLetters⟩,
  ⟨["ll", "lowercaseletter"], [lowercaseLetters]⟩,
  ⟨["lm", "modifierletter"], [modifierLetters]⟩,
  ⟨["lo", "otherletter"], [otherLetters]⟩,
  ⟨["lt", "titlecaseletter"], [titlecaseLetters]⟩,
  ⟨["lu", "uppercaseletter"], [uppercaseLetters]⟩,
  ⟨["m", "mark", "combiningmark"], marks⟩,
  ⟨["mc", "spacingmark"], [spacingMarks]⟩,
  ⟨["me", "enclosingmark"], [enclosingMarks]⟩,
  ⟨["mn", "nonspacingmark"], [nonspacingMarks]⟩,
  ⟨["n", "number"], numbers⟩,
  ⟨["nd", "decimalnumber", "digit"], [decimalNumbers]⟩,
  ⟨["nl", "letternumber"], [letterNumbers]⟩,
  ⟨["no", "othernumber"], [otherNumbers]⟩,
  ⟨["p", "punctuation", "punct"], punctuation⟩,
  ⟨["pc", "connectorpunctuation"], [connectors]⟩,
  ⟨["pd", "dashpunctuation"], [dashes]⟩,
  ⟨["pe", "closepunctuation"], [closings]⟩,
  ⟨["pf", "finalpunctuation"], [finalQuotes]⟩,
  ⟨["pi", "initialpunctuation"], [initialQuotes]⟩,
  ⟨["po", "otherpunctuation"], [otherPunctuation]⟩,
  ⟨["ps", "openpunctuation"], [openings]⟩,
  ⟨["s", "symbol"], symbols⟩,
  ⟨["sc", "currencysymbol"], [currencySymbols]⟩,
  ⟨["sk", "modifiersymbol"], [modifierSymbols]⟩,
  ⟨["sm", "mathsymbol"], [mathSymbols]⟩,
  ⟨["so", "othersymbol"], [otherSymbols]⟩,
  ⟨["z", "separator"], separators⟩,
  ⟨["zl", "lineseparator"], [lineSeparators]⟩,
  ⟨["zp", "paragraphseparator"], [paragraphSeparators]⟩,
  ⟨["zs", "spaceseparator"], [spaceSeparators]⟩]

end TypeLang.Property
