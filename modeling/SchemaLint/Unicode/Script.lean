import SchemaLint.Unicode.Category

/-!
# Scripts

The script of every code point, as version 15.0 of the Unicode character database gives it.
-/

namespace SchemaLint.Unicode.Script

/-- The script Adlam. -/
def adlam : Property :=
  .ofGaps ["Adlm", "Adlam"]
    "1e900 4c 4 a 4 2"

/-- The script Caucasian Albanian. -/
def caucasianAlbanian : Property :=
  .ofGaps ["Aghb", "Caucasian_Albanian"]
    "10530 34 b 1"

/-- The script Ahom. -/
def ahom : Property :=
  .ofGaps ["Ahom"]
    "11700 1b 2 f 4 17"

/-- The script Arabic. -/
def arabic : Property :=
  .ofGaps ["Arab", "Arabic"]
    "600 5 1 6 1 e 1 3 1 20 1 a b 1a 1 6c 1 22 50 30 f0 1f 1 2 6 4a 1 1d f250 73 10 16b 2 50 2 36
     7 1 20 10 70 5 1 87 f63 1f 7e 3 df00 4 1 1b 1 2 1 1 2 1 1 a 1 4 1 1 1 1 6 1 4 1 1 1 1 1 1 3 1
     2 1 1 2 1 1 1 1 1 1 1 1 1 1 2 1 1 2 4 1 7 1 4 1 4 1 1 1 a 1 11 5 3 1 5 1 11 34 2"

/-- The script Imperial Aramaic. -/
def imperialAramaic : Property :=
  .ofGaps ["Armi", "Imperial_Aramaic"]
    "10840 16 1 9"

/-- The script Armenian. -/
def armenian : Property :=
  .ofGaps ["Armn", "Armenian"]
    "531 26 2 32 2 3 f583 5"

/-- The script Avestan. -/
def avestan : Property :=
  .ofGaps ["Avst", "Avestan"]
    "10b00 36 3 7"

/-- The script Balinese. -/
def balinese : Property :=
  .ofGaps ["Bali", "Balinese"]
    "1b00 4d 3 2f"

/-- The script Bamum. -/
def bamum : Property :=
  .ofGaps ["Bamu", "Bamum"]
    "a6a0 58 c108 239"

/-- The script Bassa Vah. -/
def bassaVah : Property :=
  .ofGaps ["Bass", "Bassa_Vah"]
    "16ad0 1e 2 6"

/-- The script Batak. -/
def batak : Property :=
  .ofGaps ["Batk", "Batak"]
    "1bc0 34 8 4"

/-- The script Bengali. -/
def bengali : Property :=
  .ofGaps ["Beng", "Bengali"]
    "980 4 1 8 2 2 2 16 1 7 1 1 3 4 2 9 2 2 2 4 8 1 4 2 1 5 2 19"

/-- The script Bhaiksuki. -/
def bhaiksuki : Property :=
  .ofGaps ["Bhks", "Bhaiksuki"]
    "11c00 9 1 2d 1 e a 1d"

/-- The script Bopomofo. -/
def bopomofo : Property :=
  .ofGaps ["Bopo", "Bopomofo"]
    "2ea 2 2e19 2b 70 20"

/-- The script Brahmi. -/
def brahmi : Property :=
  .ofGaps ["Brah", "Brahmi"]
    "11000 4e 4 24 9 1"

/-- The script Braille. -/
def braille : Property :=
  .ofGaps ["Brai", "Braille"]
    "2800 100"

/-- The script Buginese. -/
def buginese : Property :=
  .ofGaps ["Bugi", "Buginese"]
    "1a00 1c 2 2"

/-- The script Buhid. -/
def buhid : Property :=
  .ofGaps ["Buhd", "Buhid"]
    "1740 14"

/-- The script Chakma. -/
def chakma : Property :=
  .ofGaps ["Cakm", "Chakma"]
    "11100 35 1 12"

/-- The script Canadian Aboriginal. -/
def canadianAboriginal : Property :=
  .ofGaps ["Cans", "Canadian_Aboriginal"]
    "1400 280 230 46 101ba 10"

/-- The script Carian. -/
def carian : Property :=
  .ofGaps ["Cari", "Carian"]
    "102a0 31"

/-- The script Cham. -/
def cham : Property :=
  .ofGaps ["Cham"]
    "aa00 37 9 e 2 a 2 4"

/-- The script Cherokee. -/
def cherokee : Property :=
  .ofGaps ["Cher", "Cherokee"]
    "13a0 56 2 6 9772 50"

/-- The script Chorasmian. -/
def chorasmian : Property :=
  .ofGaps ["Chrs", "Chorasmian"]
    "10fb0 1c"

/-- The script Coptic. -/
def coptic : Property :=
  .ofGaps ["Copt", "Coptic", "Qaac"]
    "3e2 e 2890 74 5 7"

/-- The script Cypro Minoan. -/
def cyproMinoan : Property :=
  .ofGaps ["Cpmn", "Cypro_Minoan"]
    "12f90 63"

/-- The script Cypriot. -/
def cypriot : Property :=
  .ofGaps ["Cprt", "Cypriot"]
    "10800 6 2 1 1 2c 1 2 3 1 2 1"

/-- The script Cyrillic. -/
def cyrillic : Property :=
  .ofGaps ["Cyrl", "Cyrillic"]
    "400 85 2 a9 1750 9 a2 1 4c 1 1067 20 7840 60 578e 2 e200 3e 21 1"

/-- The script Devanagari. -/
def devanagari : Property :=
  .ofGaps ["Deva", "Devanagari"]
    "900 51 4 f 2 1a 9f60 20 7200 a"

/-- The script Dives Akuru. -/
def divesAkuru : Property :=
  .ofGaps ["Diak", "Dives_Akuru"]
    "11900 7 2 1 2 8 1 2 1 1e 1 2 2 c 9 a"

/-- The script Dogra. -/
def dogra : Property :=
  .ofGaps ["Dogr", "Dogra"]
    "11800 3c"

/-- The script Deseret. -/
def deseret : Property :=
  .ofGaps ["Dsrt", "Deseret"]
    "10400 50"

/-- The script Duployan. -/
def duployan : Property :=
  .ofGaps ["Dupl", "Duployan"]
    "1bc00 6b 5 d 3 9 7 a 2 4"

/-- The script Egyptian Hieroglyphs. -/
def egyptianHieroglyphs : Property :=
  .ofGaps ["Egyp", "Egyptian_Hieroglyphs"]
    "13000 456"

/-- The script Elbasan. -/
def elbasan : Property :=
  .ofGaps ["Elba", "Elbasan"]
    "10500 28"

/-- The script Elymaic. -/
def elymaic : Property :=
  .ofGaps ["Elym", "Elymaic"]
    "10fe0 17"

/-- The script Ethiopic. -/
def ethiopic : Property :=
  .ofGaps ["Ethi", "Ethiopic"]
    "1200 49 1 4 2 7 1 1 1 4 2 29 1 4 2 21 1 4 2 7 1 1 1 4 2 f 1 39 1 4 2 43 2 20 3 1a 19e6 17 9 7
     1 7 1 7 1 7 1 7 1 7 1 7 1 7 7d22 6 2 6 2 6 9 7 1 7 13cb1 7 1 4 1 2 1 f"

/-- The script Georgian. -/
def georgian : Property :=
  .ofGaps ["Geor", "Georgian"]
    "10a0 26 1 1 5 1 2 2b 1 4 b90 2b 2 3 1040 26 1 1 5 1"

/-- The script Glagolitic. -/
def glagolitic : Property :=
  .ofGaps ["Glag", "Glagolitic"]
    "2c00 60 1b3a0 7 1 11 2 7 1 2 1 5"

/-- The script Gunjala Gondi. -/
def gunjalaGondi : Property :=
  .ofGaps ["Gong", "Gunjala_Gondi"]
    "11d60 6 1 2 1 25 1 2 1 6 7 a"

/-- The script Masaram Gondi. -/
def masaramGondi : Property :=
  .ofGaps ["Gonm", "Masaram_Gondi"]
    "11d00 7 1 2 1 2c 3 1 1 2 1 9 8 a"

/-- The script Gothic. -/
def gothic : Property :=
  .ofGaps ["Goth", "Gothic"]
    "10330 1b"

/-- The script Grantha. -/
def grantha : Property :=
  .ofGaps ["Gran", "Grantha"]
    "11300 4 1 8 2 2 2 16 1 7 1 2 1 5 2 9 2 2 2 3 2 1 6 1 5 7 2 7 3 5"

/-- The script Greek. -/
def greek : Property :=
  .ofGaps ["Grek", "Greek"]
    "370 4 1 3 2 4 1 1 4 1 1 1 1 3 1 1 1 14 1 3f e 10 1926 5 32 5 4 5 54 1 140 16 2 6 2 26 2 6 2 8
     1 1 1 1 1 1 1 1f 2 35 1 f 1 e 2 6 1 13 2 3 1 9 127 1 8a3e 1 55da 4f 11 1 d05f 46"

/-- The script Gujarati. -/
def gujarati : Property :=
  .ofGaps ["Gujr", "Gujarati"]
    "a81 3 1 9 1 3 1 16 1 7 1 2 1 5 2 a 1 3 1 3 2 1 f 4 2 c 7 7"

/-- The script Gurmukhi. -/
def gurmukhi : Property :=
  .ofGaps ["Guru", "Gurmukhi"]
    "a01 3 1 6 4 2 2 16 1 7 1 2 1 2 1 2 2 1 1 5 4 2 2 3 3 1 7 4 1 1 7 11"

/-- The script Hangul. -/
def hangul : Property :=
  .ofGaps ["Hang", "Hangul"]
    "1100 100 1e2e 2 101 5e 71 1f 41 1f 76e1 1d 283 2ba4 c 17 4 31 27a4 1f 3 6 2 6 2 6 2 3"

/-- The script Han. -/
def han : Property :=
  .ofGaps ["Hani", "Han"]
    "2e80 1a 1 59 c d6 2f 1 1 1 19 9 e 4 3c4 19c0 40 5200 5900 16e 2 6a 7508 2 c 2 900e a6e0 20
     103a 6 de 2 1682 e 1d31 c1f 21e 5e2 134b 5 1060"

/-- The script Hanunoo. -/
def hanunoo : Property :=
  .ofGaps ["Hano", "Hanunoo"]
    "1720 15"

/-- The script Hatran. -/
def hatran : Property :=
  .ofGaps ["Hatr", "Hatran"]
    "108e0 13 1 2 5 5"

/-- The script Hebrew. -/
def hebrew : Property :=
  .ofGaps ["Hebr", "Hebrew"]
    "591 37 8 1b 4 6 f528 1a 1 5 1 1 1 2 1 2 1 a"

/-- The script Hiragana. -/
def hiragana : Property :=
  .ofGaps ["Hira", "Hiragana"]
    "3041 56 6 3 17f61 11f 12 1 1d 3 40ad 1"

/-- The script Anatolian Hieroglyphs. -/
def anatolianHieroglyphs : Property :=
  .ofGaps ["Hluw", "Anatolian_Hieroglyphs"]
    "14400 247"

/-- The script Pahawh Hmong. -/
def pahawhHmong : Property :=
  .ofGaps ["Hmng", "Pahawh_Hmong"]
    "16b00 46 a a 1 7 1 15 5 13"

/-- The script Nyiakeng Puachue Hmong. -/
def nyiakengPuachueHmong : Property :=
  .ofGaps ["Hmnp", "Nyiakeng_Puachue_Hmong"]
    "1e100 2d 3 e 2 a 4 2"

/-- The script Old Hungarian. -/
def oldHungarian : Property :=
  .ofGaps ["Hung", "Old_Hungarian"]
    "10c80 33 d 33 7 6"

/-- The script Old Italic. -/
def oldItalic : Property :=
  .ofGaps ["Ital", "Old_Italic"]
    "10300 24 9 3"

/-- The script Javanese. -/
def javanese : Property :=
  .ofGaps ["Java", "Javanese"]
    "a980 4e 2 a 4 2"

/-- The script Kayah Li. -/
def kayahLi : Property :=
  .ofGaps ["Kali", "Kayah_Li"]
    "a900 2e 1 1"

/-- The script Katakana. -/
def katakana : Property :=
  .ofGaps ["Kana", "Katakana"]
    "30a1 5a 2 3 f0 10 d0 2f 1 58 cc0e a 1 2d b052 4 1 7 1 2 1 1 11f 3 32 1 e 4"

/-- The script Kawi. -/
def kawi : Property :=
  .ofGaps ["Kawi"]
    "11f00 11 1 29 3 1c"

/-- The script Kharoshthi. -/
def kharoshthi : Property :=
  .ofGaps ["Khar", "Kharoshthi"]
    "10a00 4 1 2 5 8 1 3 1 1d 2 3 4 a 7 9"

/-- The script Khmer. -/
def khmer : Property :=
  .ofGaps ["Khmr", "Khmer"]
    "1780 5e 2 a 6 a 1e6 20"

/-- The script Khojki. -/
def khojki : Property :=
  .ofGaps ["Khoj", "Khojki"]
    "11200 12 1 2f"

/-- The script Khitan Small Script. -/
def khitanSmallScript : Property :=
  .ofGaps ["Kits", "Khitan_Small_Script"]
    "16fe4 1 1b1b 1d6"

/-- The script Kannada. -/
def kannada : Property :=
  .ofGaps ["Knda", "Kannada"]
    "c80 d 1 3 1 17 1 a 1 5 2 9 1 3 1 4 7 2 6 2 1 4 2 a 1 3"

/-- The script Kaithi. -/
def kaithi : Property :=
  .ofGaps ["Kthi", "Kaithi"]
    "11080 43 a 1"

/-- The script Tai Tham. -/
def taiTham : Property :=
  .ofGaps ["Lana", "Tai_Tham"]
    "1a20 3f 1 1d 2 b 6 a 6 e"

/-- The script Lao. -/
def lao : Property :=
  .ofGaps ["Laoo", "Lao"]
    "e81 2 1 1 1 5 1 18 1 1 1 17 2 5 1 1 1 7 1 a 2 4"

/-- The script Latin. -/
def latin : Property :=
  .ofGaps ["Latn", "Latin"]
    "41 1a 6 1a 2f 1 f 1 5 17 1 1f 1 1c1 27 5 1a1b 26 6 31 5 4 5 d 1 46 41 100 171 1 d 1 10 d 8d 2
     6 1 1b 1 11 29 ad7 20 7aa2 66 3 40 5 2 1 1 1 5 18 e 330 2b 1 9 1 4 4f96 7 41a 1a 6 1a 825 6 1
     2a 1 9 d745 1f 6 6"

/-- The script Lepcha. -/
def lepcha : Property :=
  .ofGaps ["Lepc", "Lepcha"]
    "1c00 38 3 f 3 3"

/-- The script Limbu. -/
def limbu : Property :=
  .ofGaps ["Limb", "Limbu"]
    "1900 1f 1 c 4 c 4 1 3 c"

/-- The script Linear A. -/
def linearA : Property :=
  .ofGaps ["Lina", "Linear_A"]
    "10600 137 9 16 a 8"

/-- The script Linear B. -/
def linearB : Property :=
  .ofGaps ["Linb", "Linear_B"]
    "10000 c 1 1a 1 13 1 2 1 f 2 e 22 7b"

/-- The script Lisu. -/
def lisu : Property :=
  .ofGaps ["Lisu"]
    "a4d0 30 7ab0 1"

/-- The script Lycian. -/
def lycian : Property :=
  .ofGaps ["Lyci", "Lycian"]
    "10280 1d"

/-- The script Lydian. -/
def lydian : Property :=
  .ofGaps ["Lydi", "Lydian"]
    "10920 1a 5 1"

/-- The script Mahajani. -/
def mahajani : Property :=
  .ofGaps ["Mahj", "Mahajani"]
    "11150 27"

/-- The script Makasar. -/
def makasar : Property :=
  .ofGaps ["Maka", "Makasar"]
    "11ee0 19"

/-- The script Mandaic. -/
def mandaic : Property :=
  .ofGaps ["Mand", "Mandaic"]
    "840 1c 2 1"

/-- The script Manichaean. -/
def manichaean : Property :=
  .ofGaps ["Mani", "Manichaean"]
    "10ac0 27 4 c"

/-- The script Marchen. -/
def marchen : Property :=
  .ofGaps ["Marc", "Marchen"]
    "11c70 20 2 16 1 e"

/-- The script Medefaidrin. -/
def medefaidrin : Property :=
  .ofGaps ["Medf", "Medefaidrin"]
    "16e40 5b"

/-- The script Mende Kikakui. -/
def mendeKikakui : Property :=
  .ofGaps ["Mend", "Mende_Kikakui"]
    "1e800 c5 2 10"

/-- The script Meroitic Cursive. -/
def meroiticCursive : Property :=
  .ofGaps ["Merc", "Meroitic_Cursive"]
    "109a0 18 4 14 2 2e"

/-- The script Meroitic Hieroglyphs. -/
def meroiticHieroglyphs : Property :=
  .ofGaps ["Mero", "Meroitic_Hieroglyphs"]
    "10980 20"

/-- The script Malayalam. -/
def malayalam : Property :=
  .ofGaps ["Mlym", "Malayalam"]
    "d00 d 1 3 1 33 1 3 1 6 4 10 2 1a"

/-- The script Modi. -/
def modi : Property :=
  .ofGaps ["Modi"]
    "11600 45 b a"

/-- The script Mongolian. -/
def mongolian : Property :=
  .ofGaps ["Mong", "Mongolian"]
    "1800 2 2 1 1 14 6 59 7 2b fdb5 d"

/-- The script Mro. -/
def mro : Property :=
  .ofGaps ["Mroo", "Mro"]
    "16a40 1f 1 a 4 2"

/-- The script Meetei Mayek. -/
def meeteiMayek : Property :=
  .ofGaps ["Mtei", "Meetei_Mayek"]
    "aae0 17 c9 2e 2 a"

/-- The script Multani. -/
def multani : Property :=
  .ofGaps ["Mult", "Multani"]
    "11280 7 1 1 1 4 1 f 1 b"

/-- The script Myanmar. -/
def myanmar : Property :=
  .ofGaps ["Mymr", "Myanmar"]
    "1000 a0 9940 1f 61 20"

/-- The script Nag Mundari. -/
def nagMundari : Property :=
  .ofGaps ["Nagm", "Nag_Mundari"]
    "1e4d0 2a"

/-- The script Nandinagari. -/
def nandinagari : Property :=
  .ofGaps ["Nand", "Nandinagari"]
    "119a0 8 2 2e 2 b"

/-- The script Old North Arabian. -/
def oldNorthArabian : Property :=
  .ofGaps ["Narb", "Old_North_Arabian"]
    "10a80 20"

/-- The script Nabataean. -/
def nabataean : Property :=
  .ofGaps ["Nbat", "Nabataean"]
    "10880 1f 8 9"

/-- The script Newa. -/
def newa : Property :=
  .ofGaps ["Newa"]
    "11400 5c 1 5"

/-- The script Nko. -/
def nko : Property :=
  .ofGaps ["Nkoo", "Nko"]
    "7c0 3b 2 3"

/-- The script Nushu. -/
def nushu : Property :=
  .ofGaps ["Nshu", "Nushu"]
    "16fe1 1 418e 18c"

/-- The script Ogham. -/
def ogham : Property :=
  .ofGaps ["Ogam", "Ogham"]
    "1680 1d"

/-- The script Ol Chiki. -/
def olChiki : Property :=
  .ofGaps ["Olck", "Ol_Chiki"]
    "1c50 30"

/-- The script Old Turkic. -/
def oldTurkic : Property :=
  .ofGaps ["Orkh", "Old_Turkic"]
    "10c00 49"

/-- The script Oriya. -/
def oriya : Property :=
  .ofGaps ["Orya", "Oriya"]
    "b01 3 1 8 2 2 2 16 1 7 1 2 1 5 2 9 2 2 2 3 7 3 4 2 1 5 2 12"

/-- The script Osage. -/
def osage : Property :=
  .ofGaps ["Osge", "Osage"]
    "104b0 24 4 24"

/-- The script Osmanya. -/
def osmanya : Property :=
  .ofGaps ["Osma", "Osmanya"]
    "10480 1e 2 a"

/-- The script Old Uyghur. -/
def oldUyghur : Property :=
  .ofGaps ["Ougr", "Old_Uyghur"]
    "10f70 1a"

/-- The script Palmyrene. -/
def palmyrene : Property :=
  .ofGaps ["Palm", "Palmyrene"]
    "10860 20"

/-- The script Pau Cin Hau. -/
def pauCinHau : Property :=
  .ofGaps ["Pauc", "Pau_Cin_Hau"]
    "11ac0 39"

/-- The script Old Permic. -/
def oldPermic : Property :=
  .ofGaps ["Perm", "Old_Permic"]
    "10350 2b"

/-- The script Phags Pa. -/
def phagsPa : Property :=
  .ofGaps ["Phag", "Phags_Pa"]
    "a840 38"

/-- The script Inscriptional Pahlavi. -/
def inscriptionalPahlavi : Property :=
  .ofGaps ["Phli", "Inscriptional_Pahlavi"]
    "10b60 13 5 8"

/-- The script Psalter Pahlavi. -/
def psalterPahlavi : Property :=
  .ofGaps ["Phlp", "Psalter_Pahlavi"]
    "10b80 12 7 4 c 7"

/-- The script Phoenician. -/
def phoenician : Property :=
  .ofGaps ["Phnx", "Phoenician"]
    "10900 1c 3 1"

/-- The script Miao. -/
def miao : Property :=
  .ofGaps ["Plrd", "Miao"]
    "16f00 4b 4 39 7 11"

/-- The script Inscriptional Parthian. -/
def inscriptionalParthian : Property :=
  .ofGaps ["Prti", "Inscriptional_Parthian"]
    "10b40 16 2 8"

/-- The script Rejang. -/
def rejang : Property :=
  .ofGaps ["Rjng", "Rejang"]
    "a930 24 b 1"

/-- The script Hanifi Rohingya. -/
def hanifiRohingya : Property :=
  .ofGaps ["Rohg", "Hanifi_Rohingya"]
    "10d00 28 8 a"

/-- The script Runic. -/
def runic : Property :=
  .ofGaps ["Runr", "Runic"]
    "16a0 4b 3 b"

/-- The script Samaritan. -/
def samaritan : Property :=
  .ofGaps ["Samr", "Samaritan"]
    "800 2e 2 f"

/-- The script Old South Arabian. -/
def oldSouthArabian : Property :=
  .ofGaps ["Sarb", "Old_South_Arabian"]
    "10a60 20"

/-- The script Saurashtra. -/
def saurashtra : Property :=
  .ofGaps ["Saur", "Saurashtra"]
    "a880 46 8 c"

/-- The script SignWriting. -/
def signwriting : Property :=
  .ofGaps ["Sgnw", "SignWriting"]
    "1d800 28c f 5 1 f"

/-- The script Shavian. -/
def shavian : Property :=
  .ofGaps ["Shaw", "Shavian"]
    "10450 30"

/-- The script Sharada. -/
def sharada : Property :=
  .ofGaps ["Shrd", "Sharada"]
    "11180 60"

/-- The script Siddham. -/
def siddham : Property :=
  .ofGaps ["Sidd", "Siddham"]
    "11580 36 2 26"

/-- The script Khudawadi. -/
def khudawadi : Property :=
  .ofGaps ["Sind", "Khudawadi"]
    "112b0 3b 5 a"

/-- The script Sinhala. -/
def sinhala : Property :=
  .ofGaps ["Sinh", "Sinhala"]
    "d81 3 1 12 3 18 1 9 1 1 2 7 3 1 4 6 1 1 1 8 6 a 2 3 103ec 14"

/-- The script Sogdian. -/
def sogdian : Property :=
  .ofGaps ["Sogd", "Sogdian"]
    "10f30 2a"

/-- The script Old Sogdian. -/
def oldSogdian : Property :=
  .ofGaps ["Sogo", "Old_Sogdian"]
    "10f00 28"

/-- The script Sora Sompeng. -/
def soraSompeng : Property :=
  .ofGaps ["Sora", "Sora_Sompeng"]
    "110d0 19 7 a"

/-- The script Soyombo. -/
def soyombo : Property :=
  .ofGaps ["Soyo", "Soyombo"]
    "11a50 53"

/-- The script Sundanese. -/
def sundanese : Property :=
  .ofGaps ["Sund", "Sundanese"]
    "1b80 40 100 8"

/-- The script Syloti Nagri. -/
def sylotiNagri : Property :=
  .ofGaps ["Sylo", "Syloti_Nagri"]
    "a800 2d"

/-- The script Syriac. -/
def syriac : Property :=
  .ofGaps ["Syrc", "Syriac"]
    "700 e 1 3c 2 3 110 b"

/-- The script Tagbanwa. -/
def tagbanwa : Property :=
  .ofGaps ["Tagb", "Tagbanwa"]
    "1760 d 1 3 1 2"

/-- The script Takri. -/
def takri : Property :=
  .ofGaps ["Takr", "Takri"]
    "11680 3a 6 a"

/-- The script Tai Le. -/
def taiLe : Property :=
  .ofGaps ["Tale", "Tai_Le"]
    "1950 1e 2 5"

/-- The script New Tai Lue. -/
def newTaiLue : Property :=
  .ofGaps ["Talu", "New_Tai_Lue"]
    "1980 2c 4 1a 6 b 3 2"

/-- The script Tamil. -/
def tamil : Property :=
  .ofGaps ["Taml", "Tamil"]
    "b82 2 1 6 3 3 1 4 3 2 1 1 1 2 3 2 3 3 3 c 4 5 3 3 1 4 2 1 6 1 e 15 113c5 32 d 1"

/-- The script Tangut. -/
def tangut : Property :=
  .ofGaps ["Tang", "Tangut"]
    "16fe0 1 1f 17f8 8 300 200 9"

/-- The script Tai Viet. -/
def taiViet : Property :=
  .ofGaps ["Tavt", "Tai_Viet"]
    "aa80 43 18 5"

/-- The script Telugu. -/
def telugu : Property :=
  .ofGaps ["Telu", "Telugu"]
    "c00 d 1 3 1 17 1 10 2 9 1 3 1 4 7 2 1 3 2 1 2 4 2 a 7 9"

/-- The script Tifinagh. -/
def tifinagh : Property :=
  .ofGaps ["Tfng", "Tifinagh"]
    "2d30 38 7 2 e 1"

/-- The script Tagalog. -/
def tagalog : Property :=
  .ofGaps ["Tglg", "Tagalog"]
    "1700 16 9 1"

/-- The script Thaana. -/
def thaana : Property :=
  .ofGaps ["Thaa", "Thaana"]
    "780 32"

/-- The script Thai. -/
def thai : Property :=
  .ofGaps ["Thai"]
    "e01 3a 5 1c"

/-- The script Tibetan. -/
def tibetan : Property :=
  .ofGaps ["Tibt", "Tibetan"]
    "f00 48 1 24 4 27 1 24 1 f 1 7 4 2"

/-- The script Tirhuta. -/
def tirhuta : Property :=
  .ofGaps ["Tirh", "Tirhuta"]
    "11480 48 8 a"

/-- The script Tangsa. -/
def tangsa : Property :=
  .ofGaps ["Tnsa", "Tangsa"]
    "16a70 4f 1 a"

/-- The script Toto. -/
def toto : Property :=
  .ofGaps ["Toto"]
    "1e290 1f"

/-- The script Ugaritic. -/
def ugaritic : Property :=
  .ofGaps ["Ugar", "Ugaritic"]
    "10380 1e 1 1"

/-- The script Vai. -/
def vai : Property :=
  .ofGaps ["Vaii", "Vai"]
    "a500 12c"

/-- The script Vithkuqi. -/
def vithkuqi : Property :=
  .ofGaps ["Vith", "Vithkuqi"]
    "10570 b 1 f 1 7 1 2 1 b 1 f 1 7 1 2"

/-- The script Warang Citi. -/
def warangCiti : Property :=
  .ofGaps ["Wara", "Warang_Citi"]
    "118a0 53 c 1"

/-- The script Wancho. -/
def wancho : Property :=
  .ofGaps ["Wcho", "Wancho"]
    "1e2c0 3a 5 1"

/-- The script Old Persian. -/
def oldPersian : Property :=
  .ofGaps ["Xpeo", "Old_Persian"]
    "103a0 24 4 e"

/-- The script Cuneiform. -/
def cuneiform : Property :=
  .ofGaps ["Xsux", "Cuneiform"]
    "12000 39a 66 6f 1 5 b c4"

/-- The script Yezidi. -/
def yezidi : Property :=
  .ofGaps ["Yezi", "Yezidi"]
    "10e80 2a 1 3 2 2"

/-- The script Yi. -/
def yi : Property :=
  .ofGaps ["Yiii", "Yi"]
    "a000 48d 3 37"

/-- The script Zanabazar Square. -/
def zanabazarSquare : Property :=
  .ofGaps ["Zanb", "Zanabazar_Square"]
    "11a00 48"

/-- The script Inherited. -/
def inherited : Property :=
  .ofGaps ["Zinh", "Inherited", "Qaai"]
    "300 70 115 2 1c4 b 1a 1 2e0 4 115b 1f 201 3 1 d 1 7 4 1 6 1 3 2 c6 40 20c 2 c2 21 f39 4 6b 2
     cd65 10 10 e 3cf 1 e2 1 105a 1 bbc4 2e 2 17 220 3 11 8 2 7 1e 4 c2f52 f0"

/-- The script Common. -/
def common : Property :=
  .ofGaps ["Zyyy", "Common"]
    "0 41 1a 6 1a 2f 1 f 1 5 17 1 1f 1 1c1 27 5 5 2 14 74 1 9 1 6 1 1 1 27d 1 6 1 e 1 3 1 20 1 9c
     1 204 1 81 2 4d9 1 195 4 122 1 5ef 3 47 2 cb 2 1 1 4cd 1 d 1 7 4 1 6 1 3 2 1 305 c 2 57 1 b 3
     b 1 f 11 21 3f 26 1 3 2 6 1 1b 1 11 29 3 4 297 19 b 15 3a0 100 274 2 20 1 69 200 5e 192 c 4 5
     1 1 1 19 f 8 4 4 5b 2 3 1 5a 2 93 10 20 24 3c 40 1f 51 2f 1 58 a8 19c0 40 5900 22 66 3 a5 a
     f4 1 a0 1 18b 1 e 2 51d2 2 d0 a 16 23 1 13 1 4 93 1 1 20 1a 6 1a b a 1 2d 2 40 7 1 7 a 5 102
     3 4 2d 3 9 50 d 33 2d e4 1b b9a4 4 12ac 74 3c f6 a 27 2 3e 3 11 8 2 7 1e 4 3d d5 14 c 14 c 57
     9 19 87 55 1 47 1 2 2 1 2 2 2 4 1 c 1 1 1 7 1 41 1 4 2 8 1 7 1 1c 1 4 1 5 1 1 3 7 1 154 2 124
     2 32 1471 44 4c 3d 2c2 2c 4 64 c f 2 f 1 f 1 25 a ae 38 1a 1 2 d 2c 4 9 7 2 e 6 9a 3d8 4 11 3
     d 3 77 4 5f 6 c 4 1 f c 4 38 8 a 6 28 8 1e 2 2 4e 154 c e 2 d 3 9 7 2e 1 7 8 e 4 9 7 9 7 93 1
     37 25 a c0407 1 1e 60"

/-- All scripts. -/
def all : List Property :=
  [adlam, caucasianAlbanian, ahom, arabic, imperialAramaic, armenian, avestan, balinese, bamum,
   bassaVah, batak, bengali, bhaiksuki, bopomofo, brahmi, braille, buginese, buhid, chakma,
   canadianAboriginal, carian, cham, cherokee, chorasmian, coptic, cyproMinoan, cypriot,
   cyrillic, devanagari, divesAkuru, dogra, deseret, duployan, egyptianHieroglyphs, elbasan,
   elymaic, ethiopic, georgian, glagolitic, gunjalaGondi, masaramGondi, gothic, grantha,
   greek, gujarati, gurmukhi, hangul, han, hanunoo, hatran, hebrew, hiragana,
   anatolianHieroglyphs, pahawhHmong, nyiakengPuachueHmong, oldHungarian, oldItalic, javanese,
   kayahLi, katakana, kawi, kharoshthi, khmer, khojki, khitanSmallScript, kannada, kaithi,
   taiTham, lao, latin, lepcha, limbu, linearA, linearB, lisu, lycian, lydian, mahajani,
   makasar, mandaic, manichaean, marchen, medefaidrin, mendeKikakui, meroiticCursive,
   meroiticHieroglyphs, malayalam, modi, mongolian, mro, meeteiMayek, multani, myanmar,
   nagMundari, nandinagari, oldNorthArabian, nabataean, newa, nko, nushu, ogham, olChiki,
   oldTurkic, oriya, osage, osmanya, oldUyghur, palmyrene, pauCinHau, oldPermic, phagsPa,
   inscriptionalPahlavi, psalterPahlavi, phoenician, miao, inscriptionalParthian, rejang,
   hanifiRohingya, runic, samaritan, oldSouthArabian, saurashtra, signwriting, shavian,
   sharada, siddham, khudawadi, sinhala, sogdian, oldSogdian, soraSompeng, soyombo, sundanese,
   sylotiNagri, syriac, tagbanwa, takri, taiLe, newTaiLue, tamil, tangut, taiViet, telugu,
   tifinagh, tagalog, thaana, thai, tibetan, tirhuta, tangsa, toto, ugaritic, vai, vithkuqi,
   warangCiti, wancho, oldPersian, cuneiform, yezidi, yi, zanabazarSquare, inherited, common]

end SchemaLint.Unicode.Script
