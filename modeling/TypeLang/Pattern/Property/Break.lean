import TypeLang.Pattern.Property.Binary

/-!
# Roles at borders

How a character takes part in the borders between characters as a reader perceives them, between
words and between sentences.
-/

namespace TypeLang.Property

def graphemeBreaks : List Property := [
  ⟨["cn", "control"], ["AKBCBSdRbHNBcbMBguRBdaQBCCYHbXQdghJBjGMtuAQbzqUEhwXIbtkzLbGdSeYjGfiM"]⟩,
  ⟨["cr"], ["NB"]⟩,
  ⟨["ex", "extend"], emojiModifiers :: graphemeExtend⟩,
  ⟨["l"], ["glKdScfoQbD"]⟩,
  ⟨["lf"], ["KB"]⟩,
  ⟨["lv"], ["
    cndOBbBBbBBbBBbBBbBBbBBbBBbBBbBBbBBbBBbBBbBBbBBbBBbBBbBBbBBbBBbBBbBBbBBbBBbBBbBBbBBbBBbBBbBBbBBb
    BBbBBbBBbBBbBBbBBbBBbBBbBBbBBbBBbBBbBBbBBbBBbBBbBBbBBbBBbBBbBBbBBbBBbBBbBBbBBbBBbBBbBBbBBbBBbBBb
    BBbBBbBBbBBbBBbBBbBBbBBbBBbBBbBBbBBbBBbBBbBBbBBbBBbBBbBBbBBbBBbBBbBBbBBbBBbBBbBBbBBbBBbBBbBBbBBb
    BBbBBbBBbBBbBBbBBbBBbBBbBBbBBbBBbBBbBBbBBbBBbBBbBBbBBbBBbBBbBBbBBbBBbBBbBBbBBbBBbBBbBBbBBbBBbBBb
    BBbBBbBBbBBbBBbBBbBBbBBbBBbBBbBBbBBbBBbBBbBBbBBbBBbBBbBBbBBbBBbBBbBBbBBbBBbBBbBBbBBbBBbBBbBBbBBb
    BBbBBbBBbBBbBBbBBbBBbBBbBBbBBbBBbBBbBBbBBbBBbBBbBBbBBbBBbBBbBBbBBbBBbBBbBBbBBbBBbBBbBBbBBbBBbBBb
    BBbBBbBBbBBbBBbBBbBBbBBbBBbBBbBBbBBbBBbBBbBBbBBbBBbBBbBBbBBbBBbBBbBBbBBbBBbBBbBBbBBbBBbBBbBBbBBb
    BBbBBbBBbBBbBBbBBbBBbBBbBBbBBbBBbBBbBBbBBbBBbBBbBBbBBbBBbBBbBBbBBbBBbBBbBBbBBbBBbBBbBBbBBbBBbBBb
    BBbBBbBBbBBbBBbBBbBBbBBbBBbBBbBBbBBbBBbBBbBBbBBbBBbBBbBBbBBbBBbBBbBBbBBbBBbBBbBBbBBbBBbBBbBBbBBb
    BBbBBbBBbBBbBBbBBbBBbBBbBBbBBbBBbBBbBBbBBbBBbBBbBBbBBbBBbBBbBBbBBbBBbBBbBBbBBbBBbBBbBBbBBbBBbBBb
    BBbBBbBBbBBbBBbBBbBBbBBbBBbBBbBBbBBbBBbBBbBBbBBbBBbBBbBBbBBbBBbBBbBBbBBbBBbBBbBBbBBbBBbBBbBBbBBb
    BBbBBbBBbBBbBBbBBbBBbBBbBBbBBbBBbBBbBBbBBbBBbBBbBBbBBbBBbBBbBBbBBbBBbBBbBBbBBbBBbBBbBBbBBbBBbBBb
    BBbBBbBBbBBbBBbBBbBBbBBbBBbBBbBBbBBbBBbBBbBBbBB"]⟩,
  ⟨["lvt"], ["
    cndPbBBbBBbBBbBBbBBbBBbBBbBBbBBbBBbBBbBBbBBbBBbBBbBBbBBbBBbBBbBBbBBbBBbBBbBBbBBbBBbBBbBBbBBbBBbB
    BbBBbBBbBBbBBbBBbBBbBBbBBbBBbBBbBBbBBbBBbBBbBBbBBbBBbBBbBBbBBbBBbBBbBBbBBbBBbBBbBBbBBbBBbBBbBBbB
    BbBBbBBbBBbBBbBBbBBbBBbBBbBBbBBbBBbBBbBBbBBbBBbBBbBBbBBbBBbBBbBBbBBbBBbBBbBBbBBbBBbBBbBBbBBbBBbB
    BbBBbBBbBBbBBbBBbBBbBBbBBbBBbBBbBBbBBbBBbBBbBBbBBbBBbBBbBBbBBbBBbBBbBBbBBbBBbBBbBBbBBbBBbBBbBBbB
    BbBBbBBbBBbBBbBBbBBbBBbBBbBBbBBbBBbBBbBBbBBbBBbBBbBBbBBbBBbBBbBBbBBbBBbBBbBBbBBbBBbBBbBBbBBbBBbB
    BbBBbBBbBBbBBbBBbBBbBBbBBbBBbBBbBBbBBbBBbBBbBBbBBbBBbBBbBBbBBbBBbBBbBBbBBbBBbBBbBBbBBbBBbBBbBBbB
    BbBBbBBbBBbBBbBBbBBbBBbBBbBBbBBbBBbBBbBBbBBbBBbBBbBBbBBbBBbBBbBBbBBbBBbBBbBBbBBbBBbBBbBBbBBbBBbB
    BbBBbBBbBBbBBbBBbBBbBBbBBbBBbBBbBBbBBbBBbBBbBBbBBbBBbBBbBBbBBbBBbBBbBBbBBbBBbBBbBBbBBbBBbBBbBBbB
    BbBBbBBbBBbBBbBBbBBbBBbBBbBBbBBbBBbBBbBBbBBbBBbBBbBBbBBbBBbBBbBBbBBbBBbBBbBBbBBbBBbBBbBBbBBbBBbB
    BbBBbBBbBBbBBbBBbBBbBBbBBbBBbBBbBBbBBbBBbBBbBBbBBbBBbBBbBBbBBbBBbBBbBBbBBbBBbBBbBBbBBbBBbBBbBBbB
    BbBBbBBbBBbBBbBBbBBbBBbBBbBBbBBbBBbBBbBBbBBbBBbBBbBBbBBbBBbBBbBBbBBbBBbBBbBBbBBbBBbBBbBBbBBbBBbB
    BbBBbBBbBBbBBbBBbBBbBBbBBbBBbBBbBBbBBbBBbBBbBBbBBbBBbBBbBBbBBbBBbBBbBBbBBbBBbBBbBBbBBbBBbBBbBBbB
    BbBBbBBbBBbBBbBBbBBbBBbBBbBBbBBbBBbBBbBBbBBbBBbB"]⟩,
  ⟨["pp", "prepend"], ["chCGiHBbXBoUCdCBbrNBdugKBPBjKCuFBcbLBBBjOBcVGbaYBrBB"]⟩,
  ⟨["ri", "regionalindicator"], [regionalIndicators]⟩,
  ⟨["sm", "spacingmark"], ["
    dkTBcDBCDIEBCbYCcHCGCCCcCBcGDcOBcGDIBBCcBCcIBGCCCeKBBCDDBDcADcJEcJCcGBCBBCbUBOCcHCFDBDcBCcYCGHTC
    cLBeXBfICcLBgVBJCZCbSBcsVBHIBCnIECDECBGiQCcGBBBVGfPBcFEcMBbEBECcLBCDBBcBIICgPBVBcasHCCBdKCbYQfMB
    bWBbWCECCCeHCCCYBgBBCCFBjDCBCBCBBblxJBBBeXBbTDECeLBYCcHBbWDJBOBdPDDCgQDbFCcHBBECCCCVCdHCPBBCdZDI
    CDBeDCGBBCBBCBjECGECBeJDICBBeFBBCeGBHBkBDJBjOFBCHBBBfMDIEEBdGBbDCcKBpRBOBeCBHBCBiFFECBBnMCMBbWCI
    CyzADfjGcD"]⟩,
  ⟨["t"], ["grWdKcwxNbX"]⟩,
  ⟨["v"], ["gpCcUcwzWXcerCBDE"]⟩,
  ⟨["zwj"], ["mdPB"]⟩]

def wordBreaks : List Property := [
  ⟨["cr"], ["NB"]⟩,
  ⟨["dq", "doublequote"], ["bIB"]⟩,
  ⟨["ex", "extendnumlet"], ["dRBmbFBPCTBdgaOCYDjFB"]⟩,
  ⟨["extend"], spacingMarks :: emojiModifiers :: graphemeExtend⟩,
  ⟨["fo", "format"], ["gRBcaKGWBhKBbXBoUCdCBftJBdaTCbAFbXFBKdghJBjPDgiZBPBnkKQbzqUEhwXIbtkzMB"]⟩,
  ⟨["hl", "hebrewletter"], ["cfGbBEEdovYBBKBNBFBBBCBCBK"]⟩,
  ⟨["ka", "katakana"], ["sgNFdXCDdNBEjGQiAbVBdKczhEcEcouCEBHBCBBlBDbYBOE"]⟩,
  ⟨["le", "aletter"], ["
    cNbAGbAbVBKBEBFXBbFBsMGbIeIFBCCEBBGBBDBBBUBdFBfJIgKBbMCEBBBbPBBeABbSbRbJCBdVBBPCHCKDCBQBBbEbDdLL
    BYbHJCEBFWEBJBDBXZHLFYBGRbQcGcCDBSBHKPQEICCCWBHBBDEDBQBNCBDOCKBIGECCWBHBCBCBCbFEBBTDQJBDBWBHBCBF
    DBSBPCXBLICCCWBHBCBFDBbECBDPBRBBGDDBEDCBBBCDCDDDMWBcAIBDBXBQDBbADCBCCbEBEIBDBXBKBFDBbFCBCPCRJBDB
    bPCBQBFDIDYGFSDYBJBBCHmBBcLIBbKbBFkPbMBBFBCbRBmVBECHBBBECbPBECbHBECHBBBECPBcFBECcPbLQQdICGDxWCRB
    bAFcXDLHSNTOSONBDgTdLHFCbIBBFcSKbFiRXjEbVRIcCbENCKbSbAbKbPDKbKCLFbRCDbPEBGBCDBFhKcMkSCGCbMCGCIBB
    BBBBBbFCcBBHBBDDBHDECGENFDBHeMBNBQNdXBEBCKBBDFGBBBBBBEBLCEFFEBRbPbfHcAcrUiVGEDCMbMBBFBCcEHBQXJHB
    HBHBHBHBHBHBHdCBsBBcBChSbRBdQRbGbptObsVcPbUCkJDQKCUbVQbFCdCYhQCCBBBIVQBDBEBXbDcAObYcKGDBBCLbCKXZ
    bDHbVbCBbWbPXDBIfSLHDMGCGCGJHBHBcGGeLbDqnSMXEbXngUHMFcEdUbHnZScMCcCbOMeMFBfFbKbAGbAcRbFDGCGCGCDb
    JMBbABTBCBPCObIeTcRcBkHbDDbXbVbGNbEFbMKbECbKEIBFbQgCSbKEbKEbOIcAMLBPBHBCBLBPBHBCDcAMlZJWKIYGBbQB
    JcRGCBBbSBCDBCXKXJbFcNTBCKWKbAcScEGCcMBPEBDBbDbQbDDbDbJIBbCbBcCKWKTNSeGcVcDbZNbZNbKbMbCJXjQbQGCQ
    DcHbDKBIWbQSbUVbBXMcBcFCCBNbTbGZbAbKbDBCBIbJDBMbWOEVBBBbJSBZTCcLHBBBEBPBKHbVbMICCCWBHBCBFDBSBMFb
    EKBBCBBbMBBZBBBbScBSEUDbEbWUCBBhCbVbPEbKbWUBcHbRNBmPbSeMcMbFICBCIBCBYPBBBdQICbNQBBBbCBKbOHBVBLbU
    TBScVhRbHbFJBbLRBbXbEeIHBCBbMVBZGBCBbGOBmPTPBBNBbIeUBdBbjMdYeHRhOdxKdTPbpGRGZfxRFwLkdDbEcpUvXHbF
    RdBRbESbWQEbFVFTqQbTiDcMeYcXFBcONcMCBBbcvKeDFNDJHKiwKdHBcTBCCBCCCEBMBBBHBcNBECIBHBbCBEBFBBDHBnCC
    ZBZBbFBZBbFBZBbFBZBbFBZBIcsYbFGGkBcKfQbTKHQBmJbESbSsQbCiUbECBtBHBEBCBPBhPcHcQHBbuIEBbBBCBBCBBKBE
    BBBBGBEBBBBBBDBCBBCBBBBBBBBBBCBBCEBHBEBEBBBKBRFDBFBRyEbAGbAGbA"]⟩,
  ⟨["lf"], ["KB"]⟩,
  ⟨["mb", "midnumlet"], ["bUBmcFCKBdgdPBgYBGB"]⟩,
  ⟨["ml", "midletter"], ["cGBeUBbbRBsDBfSBjxYBdgbBBcNBhOB"]⟩,
  ⟨["mn", "midnum"], ["bSBOBbgCBuCBfACdQBpFBjfFBdfzVBDBcHBDBhBBOB"]⟩,
  ⟨["nl", "newline"], ["LCeQBlzMC"]⟩,
  ⟨["nu", "numeric"], ["
    bWKciOKBBfCKhQKpWKeOKeOKeOKeOKeOKeOKeOKeOKeOKdSKeOKcSKkSKcSKctQKbMKlOKeYKgKKGKhAKdIKfEKGKcaeOKba
    CKbMKhQKWKdIKpQKbfmCKccKKdfYKGKbeQKeYKcIKfOKkSKnEKeOKoKKdYKGUcYKqGKdYKzMKdIKjMKcSKqGKyyGKdmCKdIK
    fEKuOKbkdYKecQbYdnCKqGKtIKjNKbgVKhbAK"]⟩,
  ⟨["ri", "regionalindicator"], [regionalIndicators]⟩,
  ⟨["sq", "singlequote"], ["bNB"]⟩,
  ⟨["wsegspace"], ["bGBimHBdpNHBDdGBfxWB"]⟩,
  ⟨["zwj"], ["mdPB"]⟩]

def sentenceBreaks : List Property := [
  ⟨["at", "aterm"], ["bUBmcRBdgdPBhFB"]⟩,
  ⟨["cl", "close"], ["
    bIBEDbXBBBbDBBBbTBPBfmSEcuNCdpJIZCKCcCCOCyJEbDCbpGGHOdBCbFKpNWcLEbGCbnMOOCCKYBSIqLKCIBDczrQCiHCb
    CQCCQGgNCbXBBBbDBBBBCBCdpoSD"]⟩,
  ⟨["cr"], ["NB"]⟩,
  ⟨["ex", "extend"], "mdPB" :: spacingMarks :: graphemeExtend⟩,
  ⟨["fo", "format"], ["gRBcaKGWBhKBbXBoUCdCBftJBdaQBCCbAFbXFBKdghJBjPDgiZBPBnkKQbzqUEhwXIbtkzMB"]⟩,
  ⟨["le", "oletter"], ["
    rBBEEiABbKHGMbABBBfDBsQBeObBEFbSbRbJCBdVBBPCHCKDCBQBBbEbDdLLBYbHJCEBFWEBJBDBXZHLFYBGRbQcGcCDBSBH
    KPQEICCCWBHBBDEDBQBNCBDOCKBIGECCWBHBCBCBCbFEBBTDQJBDBWBHBCBFDBSBPCXBLICCCWBHBCBFDBbECBDPBRBBGDDB
    EDCBBBCDCDDDMWBcAIBDBXBQDBbADCBCCbEBEIBDBXBKBFDBbFCBCPCRJBDBbPCBQBFDIDYGFSDYBJBBCHcGbWBCMHcGCBBB
    FBYBBBKBCJBCFBBVEbGBcLIBbKbBFeLbRUBQGEEDBDCHDENMBcNbRCmUBECHBBBECbPBECbHBECHBBBECPBcFBECcPbLQeJx
    WCRBbAFcXDLHSNTOSONBDPcAbJBEBcPdLHFCbIBBFcSKbFbXbECFLbSEbAcCXJcBdEBdPbVRIcCbENCKbSbAbKbPDKbKSbRC
    DbPEBGBCDBbpQEcTDCEekTcEHBQXJHBHBHBHBHBHBHBHdCBsBDZJHFCFEdIGDBdMBEFbRBdQRbGbWQtSjtOcMbguFcPbUCkJ
    DQKCcOBQBbGdCbNJeABGBdZBDHBDBEBXbDcAObYcKGDBBCLbCKXZbDHbVbCBQFBKKFBbPXDBIUXDBDbYBBDCCFCBBBYDCLHD
    MGCGCGJHBHfPbJbDqnSMXEbXmnCoCCeCcPBBKBNBFBBBCBCBeEbHnZScMCcCbOMeMFBfFeBcECbFDGCGCGCDbJMBbABTBCBP
    CObIeTcRcBkHbDDbXbVbGNbEFbMKbECbKEIBFeSdAdUbOIcAdOcAMlZJWKIZCeVGCBBbSBCDBCXKXJbFcNTBCKWKbAcScEGC
    cMBPEBDBbDbQbDDbDbJIBbCbBcCKWKTNSeGcVhBbKbMGbFBkMbQGCQDcHbDKBIWbQSbUVbBXMcBcFCCBNbTbGZbAbKbDBCBI
    bJDBMbWOEVBBBbJSBZTCcLHBBBEBPBKHbVbMICCCWBHBCBFDBSBMFbEKBBCBBbMBBZBBBbScBSEUDbEbWUCBBhCbVbPEbKbW
    UBcHbRNBcTbBbLHhDbSiDICBCIBCBYPBBBdQICbNQBBBbCBKbOHBVBLbUTBScVhRbHbFJBbLRBbXbEeIHBCBbMVBZGBCBbGO
    BmPTPBBNBbIeUBdBbjMdYeHRhOdxKdTPbpGRGZfxRFwLkdDbEcpUvXHbFRdBRbESbWQEbFVFTqQbTpNcXFBcONcMCBBbCjcA
    IbvQbPKnfREBHBCBlFPBbDDCBOEIpGdkUeDFNDJHKnbCBtHbTKHQBmJbESbSsQbCiUbECBtBHBEBCBPBhPfEBbuIEBbBBCBB
    CBBKBEBBBBGBEBBBBBBDBCBBCBBBBBBBBBBCBBCEBHBEBEBBBKBRFDBFBRgoAclfCbGgdUGiOCinQOlbLPxYdqWuWcfYhhZ
    FgfG"]⟩,
  ⟨["lf"], ["KB"]⟩,
  ⟨["lo", "lower"], ["
    dTbAbVBKBEBbKYBIBBBBBBBBBBBBBBBBBBBBBBBBBBBBBBBBBBBBBBBBBBBBBBBBBBBBBBBCBBBBBBBBBBBBBBBCBBBBBBBB
    BBBBBBBBBBBBBBBBBBBBBBBBBBBBBBBBBBBBBBCBBBBDCBBBCBDCEBCBDDCBCBBBBBCBBCBBCBDBBBCCCDGBCBCBBBBBBBBB
    BBBBBBBCBBBBBBBBBBBBBBBBBCCBBBDBBBBBBBBBBBBBBBBBBBBBBBBBBBBBBBBBBBBBBBBBBBBBBBBBBBBBBBBBBHCBCCBB
    EBBBBBBBBcRBbKHCbEFfKBBBDBCESBbBbJBCDDBBBBBBBBBBBBBBBBBBBBBBBFBBCBCCbZbWBBBBBBBBBBBBBBBBBBBBBBBB
    BBBBBBBBBBJBBBBBBBBBBBBBBBBBBBBBBBBBBBBBBBBBBBBBBBBBBBBBBBBBBBBBCBBBBBBBBBBBBCBBBBBBBBBBBBBBBBBB
    BBBBBBBBBBBBBBBBBBBBBBBBBBBBBBBBBBBBBBBBBBBBBBBBBBBBBBBBBBBBBBBBBBBBBBBBBBBBBBbWbPeiTBbdJGdfUJBB
    eNhKcNBBBBBBBBBBBBBBBBBBBBBBBBBBBBBBBBBBBBBBBBBBBBBBBBBBBBBBBBBBBBBBBBBBBBBBBBBBBBBBBBBBBBBBBBBB
    BBBBBBBBBBBBBBBBBBBBBBBBBBBBBBBBBBBBBBBBBBBBBBBBBBBBBBBBBBJBBBBBBBBBBBBBBBBBBBBBBBBBBBBBBBBBBBBB
    BBBBBBBBBBBBBBBBBBBBBBBBBBBBBBBBBBBBBBBBBBBBBBBBBBBBBBBBBBBBJIGKIIIIGKIIIIOCIIIIIIFBCGBDDBCIECCI
    IKDBCeRBNBQNeFBDCDBbBBEBEBCCIEEBbHQEBbgLbActQbWBBDCBBBBBBEBBCBIDBBBBBBBBBBBBBBBBBBBBBBBBBBBBBBBB
    BBBBBBBBBBBBBBBBBBBBBBBBBBBBBBBBBBBBBBBBBBBBBBBBBBBBBBBBBBBBBBBBBBCHBBBEBMbMBBFBbtwDBBBBBBBBBBBB
    BBBBBBBBBBBBBBBBBBBBBBBBBBBBBBBBBTBBBBBBBBBBBBBBBBBBBBBBBBBBDfDBBBBBBBBBBBBDBBBBBBBBBBBBBBBBBBBB
    BBBBBBBBBBBBBBBBBBBBBBBBBBBBBBBBBBBBBBBBBKBBBBCBBBBBBBBBEBBBCBBDBBBBBBBBBBBBBBBBBBBBFBFBBBBBBBBB
    BBBBBBEBBBCBDBBBBBBBBBBBWDBBBDbfPbRBOGdCbeaIHMFboZbAbvHbOfGbKfZLBPBHBCrJBCDBbQBJbxLbZeVWegObGbgj
    WbGbmmKbAbAHBSbAbAbAEBBBHBLbAbAbAbAbAbAbAbAbAbAbAbAbAbAbAbAbAbCbCZBGbAZBGbAZBGbAZBGbAZBGBBcsYKBU
    GGkBcKdhSbI"]⟩,
  ⟨["nu", "numeric"], ["
    bWKciOKBCfBKhQKpWKeOKeOKeOKeOKeOKeOKeOKeOKeOKdSKeOKcSKkSKcSKctQKbMKlOKeYKgKKGKhAKdIKfEKGKcaeOKba
    CKbMKhQKWKdIKpQKbfmCKccKKdfYKGKbeQKeYKcIKfOKkSKnEKeOKoKKdYKGUcYKqGKdYKzMKdIKjMKcSKqGKyyGKdmCKdIK
    fEKuOKbkdYKecQbYdnCKqGKtIKjNKbgVKhbAK"]⟩,
  ⟨["sc", "scontinue"], ["bSCMBbyOBgSCsWBgbXBFBdbECgaUBdaaWCBBbDCbDCDBCBKBgMCMBcVB"]⟩,
  ⟨["se", "sep"], ["fDBlzMC"]⟩,
  ⟨["sp"], ["JBBCTBeXBihJBdpNLbKBbVBfxWB"]⟩,
  ⟨["st", "sterm"], ["
    bHBbDBcaBBfRDgYBbRDjMBcJBBBDClHCcpWCbeKBECbdTBhQCgBCbTBFBmCCnQEgGCKCCCbDDhFCcNCbkUCJDeuXDlUBNBWC
    qNBbshWBkKCiTBDBoSCdICdRBfWCfRDfOCjPBbfcWBCCcLCgNBbDBcNBedWCbxDFbSEhHCeNEeXDeZCGBQCdKCBCeEBlMCeN
    CoJCFPeBCjPDtXBBBjRCdJCqECbaQCcWCbcmBCfDBcNCLBvHClKBbdoGBliMB"]⟩,
  ⟨["up", "upper"], ["
    cNbAdXXBHbHBBBBBBBBBBBBBBBBBBBBBBBBBBBBBBBBBBBBBBBBBBBBBBBBBBBBBBBCBBBBBBBBBBBBBBBCBBBBBBBBBBBBB
    BBBBBBBBBBBBBBBBBBBBBBBBBBBBBBBBBCBBBBDCBBBCBDCEBCBDDCBCBBBBBCBBCBBCBDBBBCDBHCBCBCBBBBBBBBBBBBBB
    BBCBBBBBBBBBBBBBBBBBCCBBBDBBBBBBBBBBBBBBBBBBBBBBBBBBBBBBBBBBBBBBBBBBBBBBBBBBBBBBBBBBHCBCCBBEBBBB
    BBBBlDBBBDBIBGBBDBBBCBRBJbJBCDDBBBBBBBBBBBBBBBBBBBBBBBFBCBBCCbZbWBBBBBBBBBBBBBBBBBBBBBBBBBBBBBBB
    BBJBBBBBBBBBBBBBBBBBBBBBBBBBBBBBBBBBBBBBBBBBBBBBBBBBBBBBBCBBBBBBBBBBBBCBBBBBBBBBBBBBBBBBBBBBBBBB
    BBBBBBBBBBBBBBBBBBBBBBBBBBBBBBBBBBBBBBBBBBBBBBBBBBBBBBBBBBBBBBBBBBBBBBCbMehDbMBBFBbbUdIdgLBoKBBB
    BBBBBBBBBBBBBBBBBBBBBBBBBBBBBBBBBBBBBBBBBBBBBBBBBBBBBBBBBBBBBBBBBBBBBBBBBBBBBBBBBBBBBBBBBBBBBBBB
    BBBBBBBBBBBBBBBBBBBBBBBBBBBBBBBBBBBBBBBBBBBBBBBBBBJBBBBBBBBBBBBBBBBBBBBBBBBBBBBBBBBBBBBBBBBBBBBB
    BBBBBBBBBBBBBBBBBBBBBBBBBBBBBBBBBBBBBBBBBBBBBBBBBBBBJIIGKIIIIGLBBBBBBBIIYIIIIIIFLFLEMFLFkBBEBDDC
    DCBDFGBBBBBBECEKCFBbAQTBbfMbAcsUbWbWBBDCBBBBBBEBBCBIDBBBBBBBBBBBBBBBBBBBBBBBBBBBBBBBBBBBBBBBBBBB
    BBBBBBBBBBBBBBBBBBBBBBBBBBBBBBBBBBBBBBBBBBBBBBBBBBBBBBBIBBBEBbtyJBBBBBBBBBBBBBBBBBBBBBBBBBBBBBBB
    BBBBBBBBBBBBBBTBBBBBBBBBBBBBBBBBBBBBBBBBBBfFBBBBBBBBBBBBBDBBBBBBBBBBBBBBBBBBBBBBBBBBBBBBBBBBBBBB
    BBBBBBBBBBBBBBBBBBBBBBBKBBBBCBBBBBBBBEBBBCBBBDBBBBBBBBBBBBBBBBBBBBFBFBBBBBBBBBBBBBBBEBBBCDBFBBBB
    BBBYBbhaHbAbuZbOfGbKgALBPBHBCcqCbZgBWegObGbgjWbGbmmQbAbAbAbAbAbABBCCBCCCEBIbAbAbACBECIBHbBCBEBFB
    BDHbBbAbAbAbAbAbAbAbAbAbAbAbEZbHZbHZbHZbHZbHBgnLbIdbIbAGbAGbA"]⟩]

end TypeLang.Property
