import TypeLang.Pattern.Property.Basic

/-!
# Scripts

The script that a character belongs to, and the further scripts that it is used in.
-/

namespace TypeLang.Property

def scripts : List Property := [
  ⟨["adlm", "adlam"], ["hdeUcYEKEC"]⟩,
  ⟨["aghb", "caucasianalbanian"], ["duxScALB"]⟩,
  ⟨["ahom"], ["ebrCbBCPEX"]⟩,
  ⟨["arab", "arabic"], ["
    chCFBGBOBDBbGBKLbABeEBbIdCbWjGbFBCFcXBbDdntWeLQnZCdCCcCHBbGQeIFBfFfvNbFcPDcDEdglSEBbBBCBBCBBKBEB
    BBBGBEBBBBBBDBCBBCBBBBBBBBBBCBBCEBHBEBEBBBKBRFDBFBRcAC"]⟩,
  ⟨["armi", "imperialaramaic"], ["dwbWWBJ"]⟩,
  ⟨["armn", "armenian"], ["bzDbMCbYCDdozJF"]⟩,
  ⟨["avst", "avestan"], ["dxcYcCDH"]⟩,
  ⟨["bali", "balinese"], ["kfWcZBbY"]⟩,
  ⟨["bamu", "bamum"], ["clcQdKcvcQvX"]⟩,
  ⟨["bass", "bassavah"], ["fhkIbECG"]⟩,
  ⟨["batk", "batak"], ["knGcAIE"]⟩,
  ⟨["beng", "bengali"], ["dpOEBICCCWBHBBDECJCCCEIBECBFCZ"]⟩,
  ⟨["bhks", "bhaiksuki"], ["edoIJBbTBOKbD"]⟩,
  ⟨["bopo", "bopomofo"], ["bcSCrlXbReIbG"]⟩,
  ⟨["brah", "brahmi"], ["dzaEdAEbKJB"]⟩,
  ⟨["brai", "braille"], ["pdWjW"]⟩,
  ⟨["bugi", "buginese"], ["jwAbCCC"]⟩,
  ⟨["buhd", "buhid"], ["iuYU"]⟩,
  ⟨["cakm", "chakma"], ["dzkAcBBS"]⟩,
  ⟨["cans", "canadianaboriginal"], ["hoYyQvOcSdtpQQ"]⟩,
  ⟨["cari", "carian"], ["dtyMbX"]⟩,
  ⟨["cham"], ["cmjWcDJOCKCE"]⟩,
  ⟨["cher", "cherokee"], ["hlGdICGcfjEdC"]⟩,
  ⟨["chrs", "chorasmian"], ["dyxCbC"]⟩,
  ⟨["copt", "coptic", "qaac"], ["bmGOpjKeMFH"]⟩,
  ⟨["cpmn", "cyprominoan"], ["ekyYdV"]⟩,
  ⟨["cprt", "cypriot"], ["dvzKGCBBbSBCDBCB"]⟩,
  ⟨["cyrl", "cyrillic"], ["bnKfDCgNivOLgEBcYBgfNbGbtoAdSbheCCdhpGcKbHB"]⟩,
  ⟨["deva", "devanagari"], ["dkQdDEPCbAcijGbGbreMK"]⟩,
  ⟨["diak", "divesakuru"], ["eckUHCBCIBCBbEBCCMJK"]⟩,
  ⟨["dogr", "dogra"], ["ecaYcI"]⟩,
  ⟨["dsrt", "deseret"], ["dumAdC"]⟩,
  ⟨["dupl", "duployan"], ["gmdSeDFNDJHKCE"]⟩,
  ⟨["egyp", "egyptianhieroglyphs"], ["eldGbqSKfxR"]⟩,
  ⟨["elba", "elbasan"], ["duvWbO"]⟩,
  ⟨["elym", "elymaic"], ["dyyYX"]⟩,
  ⟨["ethi", "ethiopic"], ["
    gvGcVBECHBBBECbPBECbHBECHBBBECPBcFBECcPCbGDbAjvAXJHBHBHBHBHBHBHBHbvkCGCGCGJHBHepyFHBEBCBP"]⟩,
  ⟨["geor", "georgian"], ["ghSbMBBFBCbRBEejWbRCDgeAbMBBFB"]⟩,
  ⟨["glag", "glagolitic"], ["qrGdSgizGHBRCHBCBF"]⟩,
  ⟨["gong", "gunjalagondi"], ["eebWGBCBbLBCBGHK"]⟩,
  ⟨["gonm", "masaramgondi"], ["edyEHBCBbSDBBCBJIK"]⟩,
  ⟨["goth", "gothic"], ["dueAbB"]⟩,
  ⟨["gran", "grantha"], ["eadSEBICCCWBHBCBFCJCCCDCBGBFHCHDF"]⟩,
  ⟨["grek", "greek"], ["
    bhWEBDCEBBEBBBBDBBBUBcLOQjnQFbYFEFdGBmIWCGCbMCGCIBBBBBBBbFCcBBPBOCGBTCDBJlJBcajEBbgnIdBRBda
    xRcS"]⟩,
  ⟨["gujr", "gujarati"], ["dzLDBJBDBWBHBCBFCKBDBDCBPECMHH"]⟩,
  ⟨["guru", "gurmukhi"], ["duNDBGECCWBHBCBCBCCBBFECCDDBHEBBHR"]⟩,
  ⟨["hang", "hangul"], ["glKjWllECjXdQeJbFcNbFbtaNbDyTqnSMXEbXpaIbFDGCGCGCD"]⟩,
  ⟨["hani", "han"], ["
    rpWbABdLMiGbVBBBZJOEblCjtOcMbfbKbhsIoCCeCbsiICMCccoKclfCbGgdUGiOCinQOlbLPxYdqWuWcfYhhZFgfG"]⟩,
  ⟨["hano", "hanunoo"], ["itSV"]⟩,
  ⟨["hatr", "hatran"], ["dwiATBCFF"]⟩,
  ⟨["hebr", "hebrew"], ["ccVcDIbBEGdovWbABFBBBCBCBK"]⟩,
  ⟨["hira", "hiragana"], ["shDdIGDfpeVlBSBbDDymVB"]⟩,
  ⟨["hluw", "anatolianhieroglyphs"], ["essEwL"]⟩,
  ⟨["hmng", "pahawhhmong"], ["fhmEcSKKBHBVFT"]⟩,
  ⟨["hmnp", "nyiakengpuachuehmong"], ["haeAbTDOCKEC"]⟩,
  ⟨["hung", "oldhungarian"], ["dxrSbZNbZHG"]⟩,
  ⟨["ital", "olditalic"], ["ducEbKJD"]⟩,
  ⟨["java", "javanese"], ["cmeYdACKEC"]⟩,
  ⟨["kali", "kayahli"], ["cmaAbUBB"]⟩,
  ⟨["kana", "katakana"], ["skVdMCDjGQiAbVBdKczhEKBbTcouCEBHBCBBlBDbYBOE"]⟩,
  ⟨["kawi"], ["eerWRBbPDbD"]⟩,
  ⟨["khar", "kharoshthi"], ["dwtCEBCFIBDBbDCDEKHJ"]⟩,
  ⟨["khmr", "khmer"], ["ixKdQCKGKsSbG"]⟩,
  ⟨["khoj", "khojki"], ["dztWSBbV"]⟩,
  ⟨["kits", "khitansmallscript"], ["fjiIBkgXsCbPB"]⟩,
  ⟨["knda", "kannada"], ["etCNBDBXBKBFCJBDBEHCGCBECKBD"]⟩,
  ⟨["kthi", "kaithi"], ["dzfCcPKB"]⟩,
  ⟨["lana", "taitham"], ["jxGcLBbDCLGKGO"]⟩,
  ⟨["laoo", "lao"], ["fmVCBBBFBYBBBXCFBBBHBKCE"]⟩,
  ⟨["latn", "latin"], ["
    cNbAGbAbVBPBFXBbFBrHbNFjxBbMGbXFEFNBcScNjWoFBNBQNfLCGBbBBRbPecTbGbulMdYDcPCCBBBIVObfKbRBJBEbedQH
    boKbAGbAdcFGBbQBJddnPbFGG"]⟩,
  ⟨["lepc", "lepcha"], ["kpScEDPDD"]⟩,
  ⟨["limb", "limbu"], ["jmEbFBMEMEBDM"]⟩,
  ⟨["lina", "lineara"], ["dvfSlZJWKI"]⟩,
  ⟨["linb", "linearb"], ["dsyQMBbABTBCBPCObIeT"]⟩,
  ⟨["lisu"], ["ckkUbWbumAB"]⟩,
  ⟨["lyci", "lycian"], ["dtxGbD"]⟩,
  ⟨["lydi", "lydian"], ["dwkMbAFB"]⟩,
  ⟨["mahj", "mahajani"], ["dznCbN"]⟩,
  ⟨["maka", "makasar"], ["eeqQZ"]⟩,
  ⟨["mand", "mandaic"], ["ddGbCCB"]⟩,
  ⟨["mani", "manichaean"], ["dxaMbNEM"]⟩,
  ⟨["marc", "marchen"], ["edsQbGCWBO"]⟩,
  ⟨["medf", "medefaidrin"], ["fisEdN"]⟩,
  ⟨["mend", "mendekikakui"], ["hcuYhPCQ"]⟩,
  ⟨["merc", "meroiticcursive"], ["dwpKYEUCbU"]⟩,
  ⟨["mero", "meroitichieroglyphs"], ["dwoEbG"]⟩,
  ⟨["mlym", "malayalam"], ["eyANBDBbZBDBGEQCbA"]⟩,
  ⟨["modi"], ["ebhGcRLK"]⟩,
  ⟨["mong", "mongolian"], ["jcICCBBUGdLHbRdscBN"]⟩,
  ⟨["mroo", "mro"], ["fheUbFBKEC"]⟩,
  ⟨["mtei", "meeteimayek"], ["cmsMXhTbUCK"]⟩,
  ⟨["mult", "multani"], ["dzyUHBBBEBPBL"]⟩,
  ⟨["mymr", "myanmar"], ["gbOgEcgaYbFdTbGbpaMU"]⟩,
  ⟨["nagm", "nagmundari"], ["hbpObQ"]⟩,
  ⟨["nand", "nandinagari"], ["ecqYICbUCL"]⟩,
  ⟨["narb", "oldnortharabian"], ["dwyAbG"]⟩,
  ⟨["nbat", "nabataean"], ["dweIbFIJ"]⟩,
  ⟨["newa"], ["eanOdOBF"]⟩,
  ⟨["nkoo", "nko"], ["cyIcHCD"]⟩,
  ⟨["nshu", "nushu"], ["fjiFByvMpG"]⟩,
  ⟨["ogam", "ogham"], ["inObD"]⟩,
  ⟨["olck", "olchiki"], ["ksUbW"]⟩,
  ⟨["orkh", "oldturkic"], ["dxmUcV"]⟩,
  ⟨["orya", "oriya"], ["eeJDBICCCWBHBCBFCJCCCDHDECBFCS"]⟩,
  ⟨["osge", "osage"], ["dusUbKEbK"]⟩,
  ⟨["osma", "osmanya"], ["duqYbECK"]⟩,
  ⟨["ougr", "olduyghur"], ["dyuQbA"]⟩,
  ⟨["palm", "palmyrene"], ["dwdCbG"]⟩,
  ⟨["pauc", "paucinhau"], ["edcAcF"]⟩,
  ⟨["perm", "oldpermic"], ["dufGbR"]⟩,
  ⟨["phag", "phagspa"], ["clsQcE"]⟩,
  ⟨["phli", "inscriptionalpahlavi"], ["dxgQTFI"]⟩,
  ⟨["phlp", "psalterpahlavi"], ["dxhWSHEMH"]⟩,
  ⟨["phnx", "phoenician"], ["dwjGbCDB"]⟩,
  ⟨["plrd", "miao"], ["fizOcXEcFHR"]⟩,
  ⟨["prti", "inscriptionalparthian"], ["dxfKWCI"]⟩,
  ⟨["rjng", "rejang"], ["cmbWbKLB"]⟩,
  ⟨["rohg", "hanifirohingya"], ["dxwQbOIK"]⟩,
  ⟨["runr", "runic"], ["ioUcXDL"]⟩,
  ⟨["samr", "samaritan"], ["daUbUCP"]⟩,
  ⟨["sarb", "oldsoutharabian"], ["dwwUbG"]⟩,
  ⟨["saur", "saurashtra"], ["clvCcSIM"]⟩,
  ⟨["sgnw", "signwriting"], ["gwtKzCPFBP"]⟩,
  ⟨["shaw", "shavian"], ["dupCbW"]⟩,
  ⟨["shrd", "sharada"], ["dzoYdS"]⟩,
  ⟨["sidd", "siddham"], ["ebcIcCCbM"]⟩,
  ⟨["sind", "khudawadi"], ["eaaQcHFK"]⟩,
  ⟨["sinh", "sinhala"], ["fcZDBSDYBJBBCHDBEGBBBIGKCDdulGU"]⟩,
  ⟨["sogd", "sogdian"], ["dysEbQ"]⟩,
  ⟨["sogo", "oldsogdian"], ["dyqIbO"]⟩,
  ⟨["sora", "sorasompeng"], ["dziEZHK"]⟩,
  ⟨["soyo", "soyombo"], ["ecxSdF"]⟩,
  ⟨["sund", "sundanese"], ["kkUcMjWI"]⟩,
  ⟨["sylo", "sylotinagri"], ["clqEbT"]⟩,
  ⟨["syrc", "syriac"], ["cqYOBcICDkML"]⟩,
  ⟨["tagb", "tagbanwa"], ["iwENBDBC"]⟩,
  ⟨["takr", "takri"], ["ebmEcGGK"]⟩,
  ⟨["tale", "taile"], ["jpGbECF"]⟩,
  ⟨["talu", "newtailue"], ["jrCbSEbAGLDC"]⟩,
  ⟨["taml", "tamil"], ["ejICBGDDBEDCBBBCDCDDDMEFDDBECBGBOVealHbYNB"]⟩,
  ⟨["tang", "tangut"], ["fjiEBbFjcAIbdOtSJ"]⟩,
  ⟨["tavt", "taiviet"], ["cmoUcPYF"]⟩,
  ⟨["telu", "telugu"], ["eoENBDBXBQCJBDBEHCBDCBCECKHJ"]⟩,
  ⟨["tfng", "tifinagh"], ["rcYcEHCOB"]⟩,
  ⟨["tglg", "tagalog"], ["isMWJB"]⟩,
  ⟨["thaa", "thaana"], ["cvWbY"]⟩,
  ⟨["thai"], ["fhXcGFbC"]⟩,
  ⟨["tibt", "tibetan"], ["frScUBbKEbNBbKBPBHEC"]⟩,
  ⟨["tirh", "tirhuta"], ["easMcUIK"]⟩,
  ⟨["tnsa", "tangsa"], ["fhgQdBBK"]⟩,
  ⟨["toto"], ["hatKbF"]⟩,
  ⟨["ugar", "ugaritic"], ["duhCbEBB"]⟩,
  ⟨["vaii", "vai"], ["ckmQlO"]⟩,
  ⟨["vith", "vithkuqi"], ["dvaELBPBHBCBLBPBHBC"]⟩,
  ⟨["wara", "warangciti"], ["echCdFMB"]⟩,
  ⟨["wcho", "wancho"], ["havGcGFB"]⟩,
  ⟨["xpeo", "oldpersian"], ["duiIbKEO"]⟩,
  ⟨["xsux", "cuneiform"], ["efbSbjMdYeHBFLhO"]⟩,
  ⟨["yezi", "yezidi"], ["dylKbQBDCC"]⟩,
  ⟨["yiii", "yi"], ["cipKbsVDcD"]⟩,
  ⟨["zanb", "zanabazarsquare"], ["ecuQcU"]⟩,
  ⟨["zinh", "inherited", "qaai"], ["
    bdOeIkRCrKLbABbcIEgoXbFtTDBNBHEBGBDChQcMuEChMbHftXEeDCczuJQQOblNBiSBgfABctcUbUCXuYDRICHbEEbtl
    hIjG"]⟩,
  ⟨["zyyy", "common"], ["
    AcNbAGbAbVBPBFXBbFBrHbNFFCUeMBJBGBBByNBGBOBDBbGBgABtWBeZCbvTBpPElEBcgLDcTChVCBBbvHBNBHEBGBDCBbdT
    MCdJBLDLBPRbHcLbMBDCGBbBBRbPDEzQWLVbjSjWyECbGBeBtSdQpMVBBBZPIEEdNCDBdMCfRQbGbMJBbWcMbFdDbVBdKgMj
    tOcMbhsIbIdYDgJKjKBgEBpFBOCbezQCiAKWbJBTBEfRBBbGbAGbALKBbTCcMHBHKFjYDEbTDJdCNbZbTiUbBcshWEfvGjQG
    qUgAeMcIjMKbNCcKDRICHbEEcJiFUMUMdJJZfFdHBcTBCCBCCCEBMBBBHBcNBECIBHBbCBEBFBBDHBnCClGCbYhtHcQcYcJb
    bEbSEdWMPCPBPBbLKgScEbABCNbSEJHCOGfYblWERDNDePEdRGMEBPMEcEIKGbOIbECMECcKnCMOCNDKFcEHPCLGJHfRBdYb
    suxBBbEdS"]⟩,
  ⟨["gara", "garay"], ["dxzCbMDbDIC"]⟩,
  ⟨["gukh", "gurungkhema"], ["fdrScG"]⟩,
  ⟨["krai", "kiratrai"], ["fiiIcG"]⟩,
  ⟨["onao", "olonal"], ["hbzKbREB"]⟩,
  ⟨["sunu", "sunuwar"], ["edlWbIOK"]⟩,
  ⟨["todr", "todhri"], ["dvdGcA"]⟩,
  ⟨["tutg", "tulutigalari"], ["eaiQKBBCBBbMBKBBCBBEBKBCIC"]⟩]

/-- The characters of other scripts that are used in a script as well, by its first name. -/
def scriptExtensions : List (String × String) := [
  ("adlm", "ciHBbGBjwOBfhHB"),
  ("aghb", "bdSBbSBbSB"),
  ("arab", "chOBOBDBbGBKLbABjuSBfhHBdakACcdKbC"),
  ("armn", "bdWB"),
  ("avst", "hBBrfSC"),
  ("beng", "baYBcmUCRChjEBBBCCBBIBIBCBEBCDcbaFB"),
  ("bopo", "bbJBBDNBrcPDEKBNKECBGBhNBcztHCkWF"),
  ("bugi", "cmhZB"),
  ("buhd", "iuNC"),
  ("cakm", "dtMKckEK"),
  ("cari", "hBBlzMBCBfgDB"),
  ("cher", "bdODBBGCWCLC"),
  ("copt", "hBBwMBDCBBeECqdTBdcpCbC"),
  ("cpmn", "dtiMC"),
  ("cprt", "dtiMDEbTDJ"),
  ("cyrl", "baYBcPDBBBBBBCBFBoHCjqNBgeKB"),
  ("deva", "baYBcmUCRChjEbNBCbnABbzfRK"),
  ("dogr", "doMMcidCK"),
  ("dupl", "hBBwTCBBYCqiHBfuwPE"),
  ("elba", "hBBwRB"),
  ("ethi", "beCB"),
  ("geor", "hBBbvLBeiRBfvIBfgGB"),
  ("glag", "hBBwPBBBoSBCBjXBeiRBfvIBfgYBbtnFB"),
  ("gong", "hBBdhKC"),
  ("gonm", "doMC"),
  ("goth", "hBBwQCCBbOB"),
  ("gran", "dnTCRCyQOgkABBCbEDDCbnABdntQBetWCBB"),
  ("grek", "hBBwMCCBBBBBKBbUBCBbUBjyXCzRB"),
  ("gujr", "dnTCRCcidMK"),
  ("guru", "dnTCRCcidMK"),
  ("hang", "seRDEKBNQBGBhNBcztHCkWF"),
  ("hani", "hBBrwYQBDCBBKBNKECBGBEEhFBfSQbGbMJBbWbOcEbXPMbZBdKZKFdSbFbroJIbhaZCkWFdchESlrYC"),
  ("hano", "iuNC"),
  ("hebr", "bdVC"),
  ("hira", "seRDEKBNQGBBECdNEDBdMCcztGCkWFKBbTC"),
  ("hung", "mgOBCBfgDBPB"),
  ("java", "cmhZB"),
  ("kali", "cmbUB"),
  ("kana", "bdTBbDBqzTDEKBNQGBBECdNEDBdMCcztGCkWFKBbTC"),
  ("khoj", "edIKchoIK"),
  ("knda", "dnTCRChjEBBCGBXBBBcasXG"),
  ("kthi", "doOKnxXBbufEK"),
  ("latn", "hBBtWBKBBDBBJBBBbMPBCBBPDHCBCbMBFBENkRCbvECcxKBexWBvUBhKBezMBbtuMIvEB"),
  ("limb", "doNB"),
  ("lina", "dtiTbT"),
  ("linb", "dtiMDEbTDJ"),
  ("lisu", "baYBQBrdKC"),
  ("lyci", "mgOB"),
  ("lydi", "hBBrfTB"),
  ("mahj", "hBBdhKMcidCK"),
  ("mand", "cjOB"),
  ("mani", "cjOB"),
  ("mero", "mgRB"),
  ("mlym", "dnTCRChjOBXBcasZD"),
  ("modi", "clsAK"),
  ("mong", "jcKCBBdcJBfzTCFE"),
  ("mult", "dyKK"),
  ("mymr", "cmbUB"),
  ("nand", "dnTBSCbiMKgbHBIBHBcasRG"),
  ("newa", "dnTChkCBBCJBGBBBBB"),
  ("nkoo", "chOBOBDBdppEC"),
  ("orkh", "mgOBfgFB"),
  ("orya", "dnTCRChjOBXB"),
  ("osge", "bdPBCBGBcYB"),
  ("ougr", "cjOBdusVB"),
  ("perm", "hBBwMBFDKBoDB"),
  ("phag", "jcKCBBdcJBfzUB"),
  ("phlp", "cjOB"),
  ("rohg", "chOBOBDBbGBfRB"),
  ("runr", "irRD"),
  ("samr", "rmVB"),
  ("shaw", "hBB"),
  ("shrd", "dnTBhkFBBBCCCBJBCBcatEGCB"),
  ("sind", "doMCcidMK"),
  ("sinh", "doMChkMB"),
  ("sogd", "cjOB"),
  ("sylo", "doMCeYK"),
  ("syrc", "bdRCCCBBYDHCBCbcCBOCCBbGBKLbABixRBBB"),
  ("tagb", "iuNC"),
  ("takr", "doMCcidMK"),
  ("tale", "bdOCFCDBezZK"),
  ("taml", "dnTCRChjOBcbbKBboeFBBBcDC"),
  ("tang", "seAQtBB"),
  ("telu", "dnTCRChjJCBBBBXB"),
  ("tfng", "bdQBBBBEZB"),
  ("tglg", "iuNC"),
  ("thaa", "chOBOCCBcMKdptGBKB"),
  ("thai", "baYBbABbRBbTB"),
  ("tibt", "seYE"),
  ("tirh", "dnTCRChjJBMBPBcasZK"),
  ("toto", "baYB"),
  ("yezi", "chOBOBDBcMK"),
  ("yiii", "seRCFKCIiPBdaeFF"),
  ("gara", "chOBOBDB"),
  ("gukh", "doNB"),
  ("onao", "doMC"),
  ("sunu", "bdOCBBJBCBbCBDB"),
  ("todr", "bdPBCBCBJBBBcWB"),
  ("tutg", "exAKgbQBBBcasXGhFB")]

/-- The characters that belong to no script and are not known to be used in certain ones only. -/
def sharedScripts : List Property := [
  ⟨["zinh", "inherited", "qaai"], ["
    beDBCBBPDHCBCQBCBSBFBEcgMCgoXbFbdBcCBBBFuEChMbGdfsQQQOblNBczqObUCXuYDRICHbEEbtlhIjG"]⟩,
  ⟨["zyyy", "common"], ["
    AcNbAGbAbVBMBCBFXBbFBrHDBKBBDBBJBBBGFFCUeWBGBBByNBiHBtWBcaUBpPEgdBMCbHBbFBKBCBHBLDLBPRbHcLbMBDCG
    BbBBRbPDEzQWLVbjSjWyECbGBeBtSXBYCKBEBBBbAqCBDBNBNBVBuJYbFBbXPMEgFKFdSbFBjtOcMbhsQbAdYDblOBOCbfhS
    KWVCMBTBEfRBBbGbAGbAGeXHBHKFpMNbZbTcynBjQGqUgAeMcIjMKbNCcKDRICHbEEcJiFUMUMdJbBHfFdHBcTBCCBCCCEBM
    BBBHBcNBECIBHBbCBEBFBBDHBnCClGCbYhtHcQcYcJbbEbSEdWMPCPBPBbLKgScEbABCNbSEJXGfYblWERDNDePEdRGMEBPM
    EcEIKGbOIbECMECcKnCMOCNDKFcEHPCLGJHfRBdYbsuxBBbEdS"]⟩]

end TypeLang.Property
