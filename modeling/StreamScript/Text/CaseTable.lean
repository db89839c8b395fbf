import StreamScript.Text.CaseRun

/-!
# Case mappings of Unicode

The data behind upper and lower case. A single-character mapping is listed as
runs: a run of characters at a fixed distance from one another goes to a run
at the same distance. Each run is four hexadecimal numbers – the gap since the
run before it began, its length, the distance, and the image of its first
character. The few characters whose image has several characters are listed one
by one with that image.

Two properties go with them: a character is *cased* if it takes part in case at
all, and *case-ignorable* if it may stand between cased ones without
interrupting a word.
-/

namespace StreamScript.Text

/-- The characters whose lower case is one other character. -/
def lowerRuns : List CaseRun := CaseRun.ofLines
  ["41 1a 1 61 7f 17 1 e0 18 7 1 f8 28 18 2 101 32 3 2 133 7 8 2 13a 11 17 2 14b 2e 1 1 ff 1",
   "3 2 17a 8 1 1 253 1 2 2 183 4 1 1 254 1 1 1 188 2 2 1 256 2 1 1 18c 3 1 1 1dd 1 1 1 259",
   "1 1 1 25b 1 1 1 192 2 1 1 260 1 1 1 263 2 1 1 269 1 1 1 268 1 1 1 199 4 1 1 26f 1 1 1",
   "272 2 1 1 275 1 3 2 1a1 6 1 1 280 1 1 1 1a8 2 1 1 283 3 1 1 1ad 2 1 1 288 1 1 1 1b0 2 2",
   "1 28a 2 2 2 1b4 4 1 1 292 1 1 1 1b9 4 1 1 1bd 8 1 1 1c6 1 1 1 1c6 2 1 1 1c9 1 1 1 1c9 2",
   "1 1 1cc 1 9 2 1cc 13 9 2 1df 13 1 1 1f3 1 2 2 1f3 4 1 1 195 1 1 1 1bf 1 14 2 1f9 28 1 1",
   "19e 2 9 2 223 18 1 1 2c65 1 1 1 23c 2 1 1 19a 1 1 1 2c66 3 1 1 242 2 1 1 180 1 1 1 289 1",
   "1 1 28c 1 5 2 247 12a 2 2 371 6 1 1 377 9 1 1 3f3 7 1 1 3ac 2 3 1 3ad 4 1 1 3cc 2 2 1",
   "3cd 3 11 1 3b1 12 9 1 3c3 2c 1 1 3d7 9 c 2 3d9 1c 1 1 3b8 3 1 1 3f8 2 1 1 3f2 1 1 1 3fb",
   "3 3 1 37b 3 10 1 450 10 20 1 430 50 11 2 461 2a 1b 2 48b 36 1 1 4cf 1 7 2 4c2 f 30 2 4d1",
   "61 26 1 561 b6f 26 1 2d00 27 1 1 2d27 6 1 1 2d2d 2d3 50 1 ab70 50 6 1 13f8 899 1 1 1c8a",
   "7 2b 1 10d0 2d 3 1 10fd 143 4b 2 1e01 9e 1 1 df 2 30 2 1ea1 68 8 1 1f00 10 6 1 1f10 10 8",
   "1 1f20 10 8 1 1f30 10 6 1 1f40 11 4 2 1f51 f 8 1 1f60 20 8 1 1f80 10 8 1 1f90 10 8 1",
   "1fa0 10 2 1 1fb0 2 2 1 1f70 2 1 1 1fb3 c 4 1 1f72 4 1 1 1fc3 c 2 1 1fd0 2 2 1 1f76 e 2 1",
   "1fe0 2 2 1 1f7a 2 1 1 1fe5 c 2 1 1f78 2 2 1 1f7c 2 1 1 1ff3 12a 1 1 3c9 4 1 1 6b 1 1 1",
   "e5 7 1 1 214e 2e 10 1 2170 23 1 1 2184 333 1a 1 24d0 74a 30 1 2c30 60 1 1 2c61 2 1 1 26b",
   "1 1 1 1d7d 1 1 1 27d 3 3 2 2c68 6 1 1 251 1 1 1 271 1 1 1 250 1 1 1 252 2 1 1 2c73 3 1 1",
   "2c76 9 2 1 23f 2 32 2 2c81 6b 2 2 2cec 7 1 1 2cf3 794e 17 2 a641 40 e 2 a681 a2 7 2 a723",
   "10 1f 2 a733 47 2 2 a77a 4 1 1 1d79 1 5 2 a77f d 1 1 a78c 2 1 1 265 3 2 2 a791 6 a 2",
   "a797 14 1 1 266 1 1 1 25c 1 1 1 261 1 1 1 26c 1 1 1 26a 2 1 1 29e 1 1 1 287 1 1 1 29d 1",
   "1 1 ab53 1 8 2 a7b5 10 1 1 a794 1 1 1 282 1 1 1 1d8e 1 2 2 a7c8 4 1 1 264 1 8 2 a7cd 10",
   "1 1 19b 19 1 1 a7f6 572c 1a 1 ff41 4df 28 1 10428 b0 24 1 104d8 c0 b 1 10597 c f 1 105a3",
   "10 7 1 105b3 8 2 1 105bb 6ec 33 1 10cc0 d0 16 1 10d70 b50 20 1 118c0 55a0 20 1 16e60 60",
   "19 1 16ebb 7a60 22 1 1e922"]

/-- The characters whose upper case is one other character. -/
def upperRuns : List CaseRun := CaseRun.ofLines
  ["61 1a 1 41 54 1 1 39c 2b 17 1 c0 18 7 1 d8 7 1 1 178 2 18 2 100 30 1 1 49 2 3 2 132 7 8",
   "2 139 11 17 2 14a 2f 3 2 179 5 1 1 53 1 1 1 243 3 2 2 182 5 1 1 187 4 1 1 18b 6 1 1 191",
   "3 1 1 1f6 4 1 1 198 1 1 1 23d 1 1 1 a7dc 3 1 1 220 3 3 2 1a0 7 1 1 1a7 5 1 1 1ac 3 1 1",
   "1af 4 2 2 1b3 5 1 1 1b8 4 1 1 1bc 2 1 1 1f7 6 1 1 1c4 1 1 1 1c4 2 1 1 1c7 1 1 1 1c7 2 1",
   "1 1ca 1 1 1 1ca 2 8 2 1cd f 1 1 18e 2 9 2 1de 13 1 1 1f1 1 1 1 1f1 2 1 1 1f4 4 14 2 1f8",
   "2a 9 2 222 19 1 1 23b 3 2 1 2c7e 3 1 1 241 5 5 2 246 9 1 1 2c6f 1 1 1 2c6d 1 1 1 2c70 1",
   "1 1 181 1 1 1 186 2 2 1 189 3 1 1 18f 2 1 1 190 1 1 1 a7ab 4 1 1 193 1 1 1 a7ac 2 1 1",
   "194 1 1 1 a7cb 1 1 1 a78d 1 1 1 a7aa 2 1 1 197 1 1 1 196 1 1 1 a7ae 1 1 1 2c62 1 1 1",
   "a7ad 3 1 1 19c 2 1 1 2c6e 1 1 1 19d 3 1 1 19f 8 1 1 2c64 3 1 1 1a6 2 1 1 a7c5 1 1 1 1a9",
   "4 1 1 a7b1 1 1 1 1ae 1 1 1 244 1 2 1 1b1 2 1 1 245 6 1 1 1b7 b 1 1 a7b2 1 1 1 a7b0 a7 1",
   "1 399 2c 2 2 370 6 1 1 376 4 3 1 3fd 31 1 1 386 1 3 1 388 4 11 1 391 11 1 1 3a3 1 9 1",
   "3a3 9 1 1 38c 1 2 1 38e 3 1 1 392 1 1 1 398 4 1 1 3a6 1 1 1 3a0 1 1 1 3cf 2 c 2 3d8 17 1",
   "1 39a 1 1 1 3a1 1 1 1 3f9 1 1 1 37f 2 1 1 395 3 1 1 3f7 3 1 1 3fa 35 20 1 410 20 10 1",
   "400 11 11 2 460 2a 1b 2 48a 37 7 2 4c1 d 1 1 4c0 2 30 2 4d0 90 26 1 531 b6f 2b 1 1c90 2d",
   "3 1 1cbd 2fb 6 1 13f0 888 1 1 412 1 1 1 414 1 1 1 41e 1 2 1 421 2 1 1 422 1 1 1 42a 1 1",
   "1 462 1 1 1 a64a 2 1 1 1c89 ef 1 1 a77d 4 1 1 2c63 11 1 1 a7c6 73 4b 2 1e00 9a 1 1 1e60",
   "6 30 2 1ea0 5f 8 1 1f08 10 6 1 1f18 10 8 1 1f28 10 8 1 1f38 10 6 1 1f48 11 4 2 1f59 f 8",
   "1 1f68 10 2 1 1fba 2 4 1 1fc8 4 2 1 1fda 2 2 1 1ff8 2 2 1 1fea 2 2 1 1ffa 34 2 1 1fb8 e",
   "1 1 399 12 2 1 1fd8 10 2 1 1fe8 5 1 1 1fec 169 1 1 2132 22 10 1 2160 14 1 1 2183 34c 1a",
   "1 24b6 760 30 1 2c00 31 1 1 2c60 4 1 1 23a 1 1 1 23e 2 3 2 2c67 b 1 1 2c72 3 1 1 2c75 b",
   "32 2 2c80 6b 2 2 2ceb 7 1 1 2cf2 d 26 1 10a0 27 1 1 10c7 6 1 1 10cd 7914 17 2 a640 40 e",
   "2 a680 a2 7 2 a722 10 1f 2 a732 47 2 2 a779 5 5 2 a77e d 1 1 a78b 5 2 2 a790 3 1 1 a7c4",
   "3 a 2 a796 1e 8 2 a7b4 13 2 2 a7c7 5 8 2 a7cc 29 1 1 a7f5 35d 1 1 a7b3 1d 50 1 13a0 53d1",
   "1a 1 ff21 4e7 28 1 10400 b0 24 1 104b0 bf b 1 10570 c f 1 1057c 10 7 1 1058c 8 2 1 10594",
   "705 33 1 10c80 b0 16 1 10d50 b50 20 1 118a0 55a0 20 1 16e40 5b 19 1 16ea0 7a67 22 1",
   "1e900"]

/-- The characters whose upper case has several characters. -/
def upperExpansions : List (Char × List Char) := expansionsOf
  ["df 2 53 53 149 2 2bc 4e 1f0 2 4a 30c 390 3 399 308 301 3b0 3 3a5 308 301 587 2 535 552",
   "1e96 2 48 331 1e97 2 54 308 1e98 2 57 30a 1e99 2 59 30a 1e9a 2 41 2be 1f50 2 3a5 313",
   "1f52 3 3a5 313 300 1f54 3 3a5 313 301 1f56 3 3a5 313 342 1f80 2 1f08 399 1f81 2 1f09 399",
   "1f82 2 1f0a 399 1f83 2 1f0b 399 1f84 2 1f0c 399 1f85 2 1f0d 399 1f86 2 1f0e 399 1f87 2",
   "1f0f 399 1f88 2 1f08 399 1f89 2 1f09 399 1f8a 2 1f0a 399 1f8b 2 1f0b 399 1f8c 2 1f0c 399",
   "1f8d 2 1f0d 399 1f8e 2 1f0e 399 1f8f 2 1f0f 399 1f90 2 1f28 399 1f91 2 1f29 399 1f92 2",
   "1f2a 399 1f93 2 1f2b 399 1f94 2 1f2c 399 1f95 2 1f2d 399 1f96 2 1f2e 399 1f97 2 1f2f 399",
   "1f98 2 1f28 399 1f99 2 1f29 399 1f9a 2 1f2a 399 1f9b 2 1f2b 399 1f9c 2 1f2c 399 1f9d 2",
   "1f2d 399 1f9e 2 1f2e 399 1f9f 2 1f2f 399 1fa0 2 1f68 399 1fa1 2 1f69 399 1fa2 2 1f6a 399",
   "1fa3 2 1f6b 399 1fa4 2 1f6c 399 1fa5 2 1f6d 399 1fa6 2 1f6e 399 1fa7 2 1f6f 399 1fa8 2",
   "1f68 399 1fa9 2 1f69 399 1faa 2 1f6a 399 1fab 2 1f6b 399 1fac 2 1f6c 399 1fad 2 1f6d 399",
   "1fae 2 1f6e 399 1faf 2 1f6f 399 1fb2 2 1fba 399 1fb3 2 391 399 1fb4 2 386 399 1fb6 2 391",
   "342 1fb7 3 391 342 399 1fbc 2 391 399 1fc2 2 1fca 399 1fc3 2 397 399 1fc4 2 389 399 1fc6",
   "2 397 342 1fc7 3 397 342 399 1fcc 2 397 399 1fd2 3 399 308 300 1fd3 3 399 308 301 1fd6 2",
   "399 342 1fd7 3 399 308 342 1fe2 3 3a5 308 300 1fe3 3 3a5 308 301 1fe4 2 3a1 313 1fe6 2",
   "3a5 342 1fe7 3 3a5 308 342 1ff2 2 1ffa 399 1ff3 2 3a9 399 1ff4 2 38f 399 1ff6 2 3a9 342",
   "1ff7 3 3a9 342 399 1ffc 2 3a9 399 fb00 2 46 46 fb01 2 46 49 fb02 2 46 4c fb03 3 46 46 49",
   "fb04 3 46 46 4c fb05 2 53 54 fb06 2 53 54 fb13 2 544 546 fb14 2 544 535 fb15 2 544 53b",
   "fb16 2 54e 546 fb17 2 544 53d"]

/-- The characters whose lower case has several characters. -/
def lowerExpansions : List (Char × List Char) := expansionsOf
  ["130 2 69 307"]

/-- The property `Cased`. -/
def cased : CharSet := .ofGaps
  ["41 1a 6 1a 2f 1 a 1 4 1 5 17 1 1f 1 c3 1 4 4 d0 2 23 7 2 1e 5 60 1 2a 4 2 2 2 4 1 1 6 1",
   "1 3 1 1 1 14 1 53 1 8b 8 a6 1 26 9 29 b17 26 1 1 5 1 2 2b 1 4 2a0 56 2 6 882 b 5 2b 2 3",
   "40 c0 40 116 2 6 2 26 2 6 2 8 1 1 1 1 1 1 1 1f 2 35 1 7 1 1 3 3 1 7 3 4 2 6 4 d 5 3 1 7",
   "74 1 d 1 10 d 65 1 4 1 2 a 1 1 3 5 6 1 1 1 1 1 1 4 1 6 4 1 2 4 5 5 4 1 11 20 3 2 331 34",
   "716 e5 6 4 3 2 c 26 1 1 5 1 7912 2e 12 1e 84 66 3 4 1 4d 14 6 1 3 335 2b 1 e 6 50 4f40 7",
   "c 5 409 1a 6 1a 4a5 50 60 24 4 24 74 b 1 f 1 7 1 2 1 b 1 f 1 7 1 2 1c3 1 2 3 1 2a 1 9",
   "4c5 33 d 33 5d 16 a 16 b1a 40 5560 40 20 19 2 19 652c 55 1 47 1 2 2 1 2 2 2 4 1 c 1 1 1",
   "7 1 41 1 4 2 8 1 7 1 1c 1 4 1 5 1 1 3 7 1 154 2 19 1 19 1 1f 1 19 1 1f 1 19 1 1f 1 19 1",
   "1f 1 19 1 8 734 a 1 14 6 6 105 3e 892 44 7ec 1a 6 1a 6 1a"]

/-- The property `Case_Ignorable`. -/
def caseIgnorable : CharSet := .ofGaps
  ["27 1 6 1 b 1 23 1 1 1 47 1 4 1 1 1 4 1 2 2 1f7 c0 4 2 4 1 9 2 1 1 fb 7 cf 1 5 1 31 2d 1",
   "1 1 2 1 2 1 1 2c 1 b 6 a b 1 1 23 1 a 15 10 1 65 8 1 a 1 4 21 1 1 1 1e 1b 5b b 3a b 4 1",
   "2 1 18 18 2b 3 2c 1 7 2 5 9 29 3a 37 1 1 1 4 8 4 1 3 7 a 2 d 1 f 1 3a 1 4 4 8 1 14 2 1a",
   "1 2 2 39 1 4 2 4 2 2 3 3 1 1e 2 3 1 b 2 39 1 4 5 1 2 4 1 14 2 16 6 1 1 3a 1 2 1 1 4 8 1",
   "7 2 b 2 1e 1 3d 1 c 1 32 1 3 1 37 1 1 3 5 3 1 4 7 2 b 2 1d 1 3a 1 2 1 6 1 5 2 14 2 1c 2",
   "39 2 4 4 8 1 14 2 1d 1 48 1 7 3 1 1 5a 1 2 7 b 9 62 1 2 9 9 1 1 7 49 2 1b 1 1 1 1 1 37 e",
   "1 5 1 2 5 b 1 24 9 1 66 4 1 6 1 2 2 2 19 2 4 3 10 4 d 1 2 2 6 1 f 1 5e 1 260 3 3b2 3 1d",
   "2 1e 2 1e 2 40 2 1 7 8 1 2 b 3 1 5 1 2d 5 33 1 41 2 22 1 76 3 4 2 9 1 6 3 db 2 2 1 3a 1",
   "1 7 1 1 1 1 2 8 6 a 2 1 27 1 8 2e 2 c 14 4 30 1 1 5 1 1 5 1 28 9 c 2 20 4 2 2 1 3 38 1 1",
   "2 3 1 1 3 3a 8 2 2 40 6 52 3 1 d 1 7 4 1 6 1 3 2 32 3f d 1 22 65 1bd 1 1 3 b 3 d 3 d 3 d",
   "2 c 5 8 2 a 1 2 1 2 5 31 5 1 a 1 1 d 1 10 d 33 21 b8b 2 71 3 7d 1 f 1 60 20 2f 1 1d5 1",
   "24 4 3 5 5 1 5d 6 5d 3 6f16 1 4e2 6 10e 1 62 4 1 a 1 1 1c 4 50 2 e 22 4e 1 17 3 66 4 3 2",
   "8 1 3 1 4 1 19 2 5 1 97 2 1a 12 d 1 26 8 19 b 2e 3 30 1 2 4 2 2 11 1 15 2 42 6 2 2 2 2 c",
   "1 8 1 23 1 b 1 33 1 1 3 2 2 5 2 1 1 1b 1 e 2 5 2 1 1 64 5 9 3 79 1 2 1 4 1 4f30 1 93 11",
   "23d 10 3 1 c 10 22 1 2 1 a9 1 7 1 6 1 b 1 23 1 1 1 2f 1 2d 2 43 1 15 3 201 1 e2 1 95 5",
   "405 6 1 2a 1 9 246 3 1 2 5 4 28 3 4 1 a5 2 23d 4 26 1 1a 5 1 1 13b 2 18 1 34 6 46 b 31 4",
   "7b 1 36 f 29 1 2 2 a 3 31 4 2 2 2 1 4 1 a 1 32 3 24 5 1 8 3e 1 c 2 34 9 a 4 2 1 5f 3 2 1",
   "1 2 6 1 2 1 9d 1 3 8 15 2 39 2 3 1 25 7 3 5 46 6 d 1 1 1 1 1 e 2 55 8 2 3 1 1 17 1 54 6",
   "1 1 4 2 1 2 ee 4 6 2 1 2 1b 2 55 8 2 1 1 2 6a 1 1 1 2 6 1 1 65 1 1 1 2 4 1 5 103 9 1 2",
   "100 2 1 1 4 1 90 4 2 2 4 1 20 a 28 6 2 4 8 1 9 6 2 3 2e d 1 2 c6 1 1 3 1 1 c9 7 1 6 1 1",
   "52 16 2 7 1 2 1 2 7a 6 3 1 1 2 1 7 1 1 48 2 3 1 1 1 41 1 119 2 b 2 34 5 5 1 1 1 17 1",
   "14d5 11 6 f 2cc8 c 3 3 9c0 5 3b 7 9 4 1fc 3 28 2 1e2 1 3f 11 40 2 1 2 d 2 3ffc 4 1 7 1 2",
   "c9e 2 1 4 125c 2e 2 17 220 3 9 10 2 7 1e 4 94 3 7bb 37 4 32 8 1 e 1 16 5 1 f 550 7 1 11",
   "2 7 1 2 1 5 5 3e 21 1 a0 e 170 1 3d 4 1fb 5 fe 2 f3 1 2 1 7 2 5 1 9 1 1d0 7 6d 8 aaf 5",
   "c0c01 1 1e 60 80 f0"]

end StreamScript.Text
